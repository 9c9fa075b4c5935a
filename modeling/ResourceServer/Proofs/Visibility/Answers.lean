import ResourceServer.Proofs.Visibility.Requests

/-!
# Columns that cannot be probed

A column that no list of its resource names, and that the store itself does not look at, cannot
be found out by listing or searching: two stores that differ in nothing else answer every
request alike, at whatever resource it is made.  Both fail with the same error, or they show the
same entities, with the same entities along every relation, under the same links and figures.
-/

namespace ResourceServer

variable {visible : Visibility}

/-! ## Answers -/

section Guard

variable {allowed : List String}

mutual

/-- Taking relations out of alike entities leaves alike entities. -/
theorem Entity.Alike.restrictTo (beginning : String) {entity other : Entity}
    (alike : entity.Alike visible other) :
    (entity.restrictTo allowed beginning).Alike visible (other.restrictTo allowed beginning) := by
  cases alike with
  | mk agree below =>
      rw [Entity.restrictTo, Entity.restrictTo]
      exact .mk agree (RelationsAlike.restrictRelations beginning below)

theorem RelationsAlike.restrictRelations (beginning : String)
    {relations others : List (String × Related)}
    (alike : RelationsAlike visible relations others) :
    RelationsAlike visible (ResourceServer.restrictRelations allowed beginning relations)
      (ResourceServer.restrictRelations allowed beginning others) := by
  cases alike with
  | nil => exact .nil
  | cons name first below =>
      have rest := RelationsAlike.restrictRelations beginning below
      rw [ResourceServer.restrictRelations, ResourceServer.restrictRelations]
      split
      · exact .cons name (Related.Alike.restrictTo (beginning ++ name ++ ".") first) rest
      · exact rest

theorem Related.Alike.restrictTo (beginning : String) {related other : Related}
    (alike : related.Alike visible other) :
    (related.restrictTo allowed beginning).Alike visible
      (other.restrictTo allowed beginning) := by
  cases alike with
  | absent =>
      rw [Related.restrictTo]
      exact .absent
  | single alike =>
      rw [Related.restrictTo, Related.restrictTo]
      exact .single (Entity.Alike.restrictTo beginning alike)
  | many alike =>
      rw [Related.restrictTo, Related.restrictTo]
      exact .many (EntitiesAlike.restrictEntities beginning alike)

theorem EntitiesAlike.restrictEntities (beginning : String) {entities others : List Entity}
    (alike : EntitiesAlike visible entities others) :
    EntitiesAlike visible (ResourceServer.restrictEntities allowed beginning entities)
      (ResourceServer.restrictEntities allowed beginning others) := by
  cases alike with
  | nil => exact .nil
  | cons first alike =>
      rw [ResourceServer.restrictEntities, ResourceServer.restrictEntities]
      exact .cons (Entity.Alike.restrictTo beginning first)
        (EntitiesAlike.restrictEntities beginning alike)

end

end Guard

/-- Two envelopes with the same links and figures that show alike entities. -/
structure Envelope.Alike (visible : Visibility) (left right : Envelope) : Prop where
  links : left.links = right.links
  figures : left.figures = right.figures
  data : ∃ entities others : List Entity, EntitiesAlike visible entities others ∧
    left.data = .list (entities.map fun entity => .object entity.toRecord) ∧
      right.data = .list (others.map fun entity => .object entity.toRecord)

/-- Two answers that are envelopes of alike entities. -/
inductive Answer.Alike (visible : Visibility) : Answer → Answer → Prop
  | envelope {left right : Envelope} (alike : left.Alike visible right) :
      Answer.Alike visible (.envelope left) (.envelope right)

/-- Two pages at the same place in listings of the same length, with alike items. -/
structure Page.Alike (visible : Visibility) (left right : Page) : Prop where
  items : List.Forall₂ (Entity.Alike visible) left.items right.items
  total : left.total = right.total
  page : left.page = right.page
  perPage : left.perPage = right.perPage

namespace Envelope

theorem dataOf_alike (requested : List RelationRequest) {entities others : List Entity}
    (alike : List.Forall₂ (Entity.Alike visible) entities others) :
    ∃ shown otherShown : List Entity, EntitiesAlike visible shown otherShown ∧
      dataOf requested entities = .list (shown.map fun entity => .object entity.toRecord) ∧
        dataOf requested others = .list (otherShown.map fun entity => .object entity.toRecord) :=
  ⟨guardEntities requested entities, guardEntities requested others,
    EntitiesAlike.restrictEntities "" (entitiesAlike_iff.mpr alike), rfl, rfl⟩

theorem ofEntities_alike (requested : List RelationRequest) {entities others : List Entity}
    (alike : List.Forall₂ (Entity.Alike visible) entities others) :
    (ofEntities requested entities).Alike visible (ofEntities requested others) :=
  ⟨rfl, rfl, dataOf_alike requested alike⟩

theorem ofPage_corresponds (requested : List RelationRequest) (path : String) {page other : Page}
    (alike : page.Alike visible other) :
    Corresponds (Envelope.Alike visible) (ofPage requested path page)
      (ofPage requested path other) := by
  obtain ⟨items, total, number, perPage⟩ := page
  obtain ⟨otherItems, otherTotal, otherNumber, otherPerPage⟩ := other
  obtain ⟨alike, sameTotal, sameNumber, samePerPage⟩ := alike
  dsimp only at alike sameTotal sameNumber samePerPage
  subst sameTotal sameNumber samePerPage
  have isEmpty : items.isEmpty = otherItems.isEmpty := by
    cases alike <;> rfl
  refine .bind_same (Page.lastPage ⟨items, total, number, perPage⟩) fun lastPage => .ok ?_
  refine ⟨rfl, ?_, dataOf_alike requested alike⟩
  simp only [Page.figures, Page.firstItem?, Page.lastItem?, isEmpty, alike.length_eq]

end Envelope

/-! ## Reading -/

namespace Store

variable {τ : Type} {registry : Registry} {spec : QuerySpec}

theorem count_parallel (exposes : registry.Exposes visible)
    (registered : spec.resource ∈ registry.resources) (names : spec.NamesVisible visible) :
    Action.Parallel (StoresAlike (τ := τ) visible) (· = ·) (count registry spec)
      (count registry spec) := by
  intro first second alike
  obtain ⟨memory, side⟩ := first
  obtain ⟨otherMemory, otherSide⟩ := second
  have counted := Contents.countRows_congr exposes registered names (alike.1 spec.resource.name)
  rw [Memory.perform_count, Memory.perform_count, counted]
  exact ⟨.same (fun _ => rfl) _, alike⟩

/-- Fetching rows from anywhere and loading their relations. -/
theorem fetch_hydrate_parallel (exposes : registry.Exposes visible)
    (apart : registry.TellsPathsApart) (registered : spec.resource ∈ registry.resources)
    (names : spec.NamesVisible visible)
    (leads : ∀ request ∈ spec.includes, request.LeadsVisible registry visible spec.resource)
    (offset limit : Option Int) :
    Action.Parallel (StoresAlike (τ := τ) visible) (List.Forall₂ (Entity.Alike visible))
      (fetchRows registry spec offset limit >>= hydrate registry spec)
      (fetchRows registry spec offset limit >>= hydrate registry spec) := by
  refine .bind (fetchRows_parallel exposes registered names offset limit) ?_
  intro rows others agree
  exact (hydrateTo_parallel exposes apart (includeDepth spec) registered leads agree).weaken
    fun _ _ alike => alike.imp fun _ _ alikeIn => alikeIn.alike

theorem paginate_parallel (exposes : registry.Exposes visible)
    (apart : registry.TellsPathsApart) (registered : spec.resource ∈ registry.resources)
    (names : spec.NamesVisible visible)
    (leads : ∀ request ∈ spec.includes, request.LeadsVisible registry visible spec.resource)
    (page perPage : Int) :
    Action.Parallel (StoresAlike (τ := τ) visible) (Page.Alike visible)
      (paginate registry spec page perPage) (paginate registry spec page perPage) := by
  unfold paginate
  refine .bind (count_parallel exposes registered names) ?_
  rintro total _ rfl
  rw [← bind_assoc]
  refine .bind (fetch_hydrate_parallel exposes apart registered names leads _ _) ?_
  exact fun items others alike => .pure ⟨alike, rfl, rfl, rfl⟩

end Store

namespace Endpoint

section Listing

variable {τ : Type} {endpoint : Endpoint (Memory × τ)}
variable (exposes : endpoint.registry.Exposes visible) (apart : endpoint.registry.TellsPathsApart)
variable (registered : endpoint.resource ∈ endpoint.registry.resources)
variable (scopes : ∀ scope ∈ endpoint.scopes, ∀ field ∈ scope.fields,
  visible endpoint.resource.name field)

include exposes apart registered scopes

/-- The parameters of a request decide what is looked at; the rest is reading. -/
theorem collection_parallel {given : Record} {parameters : QueryParameters}
    (read : endpoint.readParameters given = .ok parameters) (request : Request) :
    Action.Parallel (StoresAlike visible) (Answer.Alike visible)
      (endpoint.collection request parameters) (endpoint.collection request parameters) := by
  unfold collection
  refine .compute _ fun requests asked => ?_
  refine .compute _ fun spec built => ?_
  obtain ⟨isResource, names, leads⟩ :=
    spec_visible exposes registered scopes read asked built
  have registered : spec.resource ∈ endpoint.registry.resources := by
    rw [isResource]
    exact registered
  split
  · refine .bind (Store.fetch_hydrate_parallel exposes apart registered names leads none none) ?_
    exact fun entities others alike => .pure (.envelope (Envelope.ofEntities_alike requests alike))
  · refine .bind (Store.paginate_parallel exposes apart registered names leads _ _) ?_
    intro page other alike
    refine .bind (.ofExcept (Envelope.ofPage_corresponds requests request.path alike)) ?_
    exact fun _ _ alike => .pure (.envelope alike)

variable {request : Request}
variable (authorizes : Action.Parallel (StoresAlike visible) (fun _ _ => True)
  (endpoint.authorizeListing request) (endpoint.authorizeListing request))

include authorizes

theorem index_parallel :
    Action.Parallel (StoresAlike visible) (Answer.Alike visible) (endpoint.index request)
      (endpoint.index request) :=
  .bind authorizes fun _ _ _ => .compute _ fun _ read =>
    collection_parallel exposes apart registered scopes read request

theorem search_parallel :
    Action.Parallel (StoresAlike visible) (Answer.Alike visible) (endpoint.search request)
      (endpoint.search request) :=
  .bind authorizes fun _ _ _ => .compute _ fun _ read =>
    collection_parallel exposes apart registered scopes read request

end Listing

/-- An authorizer that grants everything does not look at the store. -/
theorem authorizeListing_parallel {σ : Type} {states : σ → σ → Prop} {endpoint : Endpoint σ}
    (allows : endpoint.binding.authorizer = Authorizer.allowAll) (request : Request) :
    Action.Parallel states (fun _ _ => True) (endpoint.authorizeListing request)
      (endpoint.authorizeListing request) := by
  unfold authorizeListing
  rw [allows]
  exact fun _ _ alike => ⟨.ok trivial, alike⟩

end Endpoint

/-! ## A hidden column -/

/-- Everything is visible but one column of the resource of a name. -/
def allBut (name column : String) : Visibility :=
  fun resource field => ¬ (resource = name ∧ field = column)

/-- No list of the resource of a name names a column, which is neither its key nor its mark of
trashed rows, and no relation of any resource joins by it. -/
structure Registry.Hides (registry : Registry) (name column : String) : Prop where
  unlisted : ∀ resource ∈ registry.resources, resource.name = name →
    column ∉ resource.filterable ++ resource.sortable ++ resource.searchable
  notKey : ∀ resource ∈ registry.resources, resource.name = name → resource.keyName ≠ column
  notMark : ∀ resource ∈ registry.resources, resource.name = name →
    resource.softDeletes = true → resource.deletedAtColumn ≠ column
  notJoining : ∀ owner ∈ registry.resources, ∀ entry ∈ owner.relations, ∀ target,
    registry.resource entry.2.target = .ok target →
      (owner.name = name → entry.2.ownerField owner target ≠ column) ∧
        (target.name = name → entry.2.targetField owner target ≠ column)

theorem Registry.Hides.exposes {registry : Registry} {name column : String}
    (hides : registry.Hides name column) : registry.Exposes (allBut name column) where
  listed resource registered field isListed := by
    rintro ⟨isNamed, rfl⟩
    exact hides.unlisted resource registered isNamed isListed
  key resource registered := fun hidden =>
    hides.notKey resource registered hidden.1 hidden.2
  deletedAt resource registered softDeletes := fun hidden =>
    hides.notMark resource registered hidden.1 softDeletes hidden.2
  joining owner registered entry isEntry target known := by
    obtain ⟨owned, targeted⟩ := hides.notJoining owner registered entry isEntry target known
    exact ⟨fun hidden => owned hidden.1 hidden.2, fun hidden => targeted hidden.1 hidden.2⟩

/-- A column that no list names cannot be probed.  Whatever is asked for at whatever endpoint,
stores that differ in this column only fail with the same error or answer alike, as long as
no relation has the path of another one for its name, the endpoint has no scope on the column
and its authorizer does not look at it. -/
theorem Endpoint.hidden_column_unprobed {τ : Type} {endpoint : Endpoint (Memory × τ)}
    {name column : String} (hides : endpoint.registry.Hides name column)
    (apart : endpoint.registry.TellsPathsApart)
    (registered : endpoint.resource ∈ endpoint.registry.resources)
    (scopes : ∀ scope ∈ endpoint.scopes, endpoint.resource.name = name → column ∉ scope.fields)
    (request : Request)
    (authorizes : Action.Parallel (StoresAlike (allBut name column)) (fun _ _ => True)
      (endpoint.authorizeListing request) (endpoint.authorizeListing request))
    {left right : Memory × τ} (alike : StoresAlike (allBut name column) left right) :
    Corresponds (Answer.Alike (allBut name column)) ((endpoint.index request).perform left).1
        ((endpoint.index request).perform right).1 ∧
      Corresponds (Answer.Alike (allBut name column)) ((endpoint.search request).perform left).1
        ((endpoint.search request).perform right).1 := by
  have scopes : ∀ scope ∈ endpoint.scopes, ∀ field ∈ scope.fields,
      allBut name column endpoint.resource.name field := by
    rintro scope isScope field isField ⟨isNamed, rfl⟩
    exact scopes scope isScope isNamed isField
  exact ⟨(index_parallel hides.exposes apart registered scopes authorizes left right alike).1,
    (search_parallel hides.exposes apart registered scopes authorizes left right alike).1⟩

/-- Stores of two rows that differ in the last cell of the second one. -/
theorem storesAlike_lastCell {name column : String} (table : String)
    (entry : Value × Record) (key : Value)
    (row : Record) (value other : Value) :
    StoresAlike (allBut name column)
      ({ contents := { tables :=
          [(table, [entry]), (name, [(key, row ++ [(column, value)])])] } }, ())
      ({ contents := { tables :=
          [(table, [entry]), (name, [(key, row ++ [(column, other)])])] } }, ()) := by
  refine ⟨Contents.alike_of_tables ?_, rfl⟩
  refine .cons ⟨rfl, .cons (Record.AgreeOn.refl _) .nil⟩ (.cons ⟨rfl, .cons ?_ .nil⟩ .nil)
  exact Record.AgreeOn.append (by simp [allBut]) _ _ _

/-- An author and a profile with some text. -/
def profiled (bio : String) : Memory where
  contents := { tables := [("authors", [(.int 1, Samples.Blog.authorRow 1 "alice" .null)]),
    ("profiles", [(.int 1, [("id", .int 1), ("author_id", .int 1)] ++ [("bio", .text bio)])])] }

/-- The endpoint of the authors of a blog. -/
def authorsEndpoint : Endpoint (Memory × Unit) where
  registry := ⟨Samples.Blog.resources⟩
  now := Samples.Blog.trashedAt
  binding := { resource := Samples.Blog.authors }

/-- A request for authors with their profiles. -/
def withProfiles : Request where
  query := [("include", .text "profile")]

theorem hidden_column_unprobed_profiles :
    authorsEndpoint.registry.Hides "profiles" "bio" ∧ authorsEndpoint.registry.TellsPathsApart ∧
      StoresAlike (allBut "profiles" "bio") (profiled "writer", ()) (profiled "poet", ()) ∧
        ((authorsEndpoint.index withProfiles).perform (profiled "writer", ())).1.isOk = true ∧
          Corresponds (Answer.Alike (allBut "profiles" "bio"))
            ((authorsEndpoint.index withProfiles).perform (profiled "writer", ())).1
            ((authorsEndpoint.index withProfiles).perform (profiled "poet", ())).1 := by
  have hides : authorsEndpoint.registry.Hides "profiles" "bio" := by
    constructor <;> decide +kernel
  have apart : authorsEndpoint.registry.TellsPathsApart := by decide +kernel
  have alike : StoresAlike (allBut "profiles" "bio") (profiled "writer", ()) (profiled "poet", ()) :=
    storesAlike_lastCell _ _ _ _ _ _
  refine ⟨hides, apart, alike, by decide +kernel, ?_⟩
  exact (Endpoint.hidden_column_unprobed hides apart List.mem_cons_self nofun withProfiles
    (Endpoint.authorizeListing_parallel rfl withProfiles) alike).1

/-! ## Where a column can be probed -/

/-- Nodes with a relation under the empty name, and one to leaves whose name ends in a dot. -/
def dottedNodes : Resource := { Samples.Library.nodes with
  includes := ["*"]
  aggregates := []
  relations := [Samples.belongsTo "a" "nodes" "parent_id", Samples.belongsTo "" "nodes" "parent_id",
    Samples.hasMany "a." "leaves" "parent_id"] }

/-- Leaves, which have no lists. -/
def leaves : Resource where
  name := "leaves"
  model := Samples.Library.node

/-- The endpoint of nodes with leaves. -/
def nodesEndpoint : Endpoint (Memory × Unit) where
  registry := ⟨[dottedNodes, leaves]⟩
  now := Samples.Library.trashedAt
  binding := { resource := dottedNodes }

/-- A node with a leaf of some rank. -/
def leafed (rank : Int) : Memory where
  contents := { tables := [("nodes", [(.int 1, Samples.Library.nodeRow 1 "node" .null .null)]),
    ("leaves", [(.int 7, [("id", .int 7), ("parent_id", .int 1)] ++ [("rank", .int rank)])])] }

/-- A request for nodes with their leaves of rank five. -/
def probe : Request where
  body := [("includes", .list [.object [("relation", .text "a."), ("filters", .list [.object
    [("field", .text "rank"), ("operator", .text "="), ("value", .int 5)]])]])]

/-- The keys that the only entity of an answer shows along a relation. -/
def keysAlong (relation : String) : Except Error Answer → List Int
  | .ok (.envelope ⟨.list [.object entity], _, _⟩) =>
      match Record.get entity relation with
      | .list items =>
          items.filterMap fun item =>
            match item with
            | .object members =>
                match Record.get members "id" with
                | .int key => some key
                | _ => none
            | _ => none
      | _ => []
  | _ => []

/-- A relation that has the path of another one for its name is loaded by that path, while the
conditions on it are read against the lists of the resource that the path leads to. -/
theorem probed_by_empty_segment :
    nodesEndpoint.registry.validate = .ok () ∧ nodesEndpoint.registry.Hides "leaves" "rank" ∧
      nodesEndpoint.resource ∈ nodesEndpoint.registry.resources ∧
        StoresAlike (allBut "leaves" "rank") (leafed 5, ()) (leafed 6, ()) ∧
          ((nodesEndpoint.search probe).perform (leafed 5, ())).1.isOk = true ∧
            ((nodesEndpoint.search probe).perform (leafed 6, ())).1.isOk = true ∧
              keysAlong "a." ((nodesEndpoint.search probe).perform (leafed 5, ())).1 = [7] ∧
                keysAlong "a." ((nodesEndpoint.search probe).perform (leafed 6, ())).1 = [] := by
  have hides : nodesEndpoint.registry.Hides "leaves" "rank" := by
    constructor <;> decide +kernel
  have alike : StoresAlike (allBut "leaves" "rank") (leafed 5, ()) (leafed 6, ()) :=
    storesAlike_lastCell _ _ _ _ _ _
  refine ⟨rfl, hides, List.mem_cons_self, alike, ?_, ?_, ?_, ?_⟩
  all_goals decide +kernel

end ResourceServer
