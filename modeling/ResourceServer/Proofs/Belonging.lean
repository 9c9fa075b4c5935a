import ResourceServer.Proofs.Catalog.History
import ResourceServer.Proofs.Indexing

/-!
# Belonging to a parent

An endpoint for what is related to a parent reads through a filter for the joining value of the
parent, and stores with the joining value as the foreign key.  The two agree wherever the joining
value equals itself: what is stored through the endpoint is listed by it, and by no endpoint of the
relation for another joining value.  Null and NaN join nothing, so what is stored for them is lost.
-/

namespace ResourceServer

/-! ## Endpoints of a relation -/

/-- Scalars equal themselves, except for NaN. -/
theorem Value.same_self {value : Value} (scalar : Filter.isScalar value = true)
    (notNaN : value.isNaN = false) : value.same value = true := by
  have orderly : value.Orderly := by
    cases value with
    | bool flag => exact .number rfl rfl
    | int number => exact .number rfl rfl
    | text text => exact .text text
    | float double => exact .number rfl notNaN
    | null | moment moment | list items | object members => cases scalar
  have itself := orderly.coincides_self
  rw [coincides, Bool.or_eq_true] at itself
  refine itself.resolve_left fun isSame => ?_
  cases value with
  | float double =>
      cases double with
      | nan mark => cases notNaN
      | _ => cases isSame
  | _ => cases isSame

namespace RelationEndpoint

variable {τ : Type}

/-- Related rows are those with the joining value, and there are none when it is null. -/
theorem evaluate_scopeFor {field : String} {value : Value} {scope : Filter.Leaf}
    (made : scopeFor field value = .ok scope) (row : Record) :
    scope.evaluate row =
      .ok (!value.isNull && (!(row.get field).isNull && (row.get field).same value)) := by
  unfold scopeFor at made
  cases isNull : value.isNull with
  | true =>
      rw [isNull, if_pos rfl] at made
      obtain ⟨_, rfl⟩ := Filter.Leaf.make_eq_ok.mp made
      rfl
  | false =>
      rw [isNull, if_neg Bool.false_ne_true] at made
      obtain ⟨_, rfl⟩ := Filter.Leaf.make_eq_ok.mp made
      unfold Filter.Leaf.evaluate
      dsimp only
      cases (row.get field).isNull with
      | true => rfl
      | false => rfl

variable {relation : RelationEndpoint (Memory × τ)} {related : Endpoint (Memory × τ)}

def ownerField (relation : RelationEndpoint (Memory × τ)) : String :=
  relation.relation.givenLocalKey?.getD relation.parent.resource.keyName

/-- The endpoint for what is related by a joining value, which is read through a filter. -/
def endpointFor (relation : RelationEndpoint (Memory × τ)) (scope : Filter.Leaf) (value : Value) :
    Endpoint (Memory × τ) where
  registry := relation.registry
  settings := relation.settings
  now := relation.now
  binding := relation.child
  scopes := [.leaf scope]
  attributes := [(relation.relation.foreignKey, value)]

/-- The joining value that an endpoint is for: the foreign key of all that is stored through it. -/
def joiningValue (relation : RelationEndpoint (Memory × τ)) (related : Endpoint (Memory × τ)) :
    Value :=
  related.attributes.get relation.relation.foreignKey

@[simp] theorem joiningValue_endpointFor (scope : Filter.Leaf) (value : Value) :
    relation.joiningValue (relation.endpointFor scope value) = value := by
  simp [joiningValue, endpointFor, Record.get]

theorem forParent_eq_ok {parentKey : Value} {before after : Memory × τ}
    (ofOwner : relation.relation.kind ≠ .belongsTo)
    (done : (relation.forParent parentKey).perform before = (.ok related, after)) :
    ∃ (parent : Entity) (scope : Filter.Leaf),
      scopeFor relation.relation.foreignKey (parent.get relation.ownerField) = .ok scope ∧
        related = relation.endpointFor scope (parent.get relation.ownerField) := by
  obtain ⟨key, _, done⟩ := Action.perform_compute_eq_ok.mp done
  obtain ⟨spec, _, done⟩ := Action.perform_compute_eq_ok.mp done
  obtain ⟨found, middle, _, done⟩ := Action.perform_bind_eq_ok.mp done
  cases found with
  | none => cases done
  | some parent =>
      have fields : relation.relation.joiningFields relation.parent.resource
          relation.child.resource = (relation.ownerField, relation.relation.foreignKey) := by
        unfold Relation.joiningFields
        split
        · rename_i belongsTo
          exact absurd belongsTo ofOwner
        · rfl
      have stores : (relation.relation.kind == .belongsTo) = false :=
        beq_eq_false_iff_ne.mpr ofOwner
      dsimp only at done
      rw [fields, stores] at done
      obtain ⟨scope, made, done⟩ := Action.perform_compute_eq_ok.mp done
      cases done
      exact ⟨parent, scope, made, rfl⟩

/-- Two resources that a relation of a closed catalog joins: the key of the related one is a column
of it, and so is the foreign key. -/
theorem make_columns {calls : List (Catalog.Call (Memory × τ))} {settings : Settings} {now : Moment}
    {parent name : String} (closed : (Catalog.after calls).finalized = true)
    (made : make (Catalog.after calls) settings now parent name = .ok relation)
    (ofOwner : relation.relation.kind ≠ .belongsTo) :
    relation.child.resource.keyName ∈ relation.child.resource.columns ∧
      relation.relation.foreignKey ∈ relation.child.resource.columns := by
  obtain ⟨owner, isOwner, made⟩ := bind_eq_ok.mp made
  obtain ⟨declared, isDeclared, made⟩ := bind_eq_ok.mp made
  obtain ⟨child, isChild, made⟩ := bind_eq_ok.mp made
  cases made
  obtain ⟨earlier, later, rfl, _, valid⟩ := Catalog.closed_by_call closed
  -- Bindings were made before the catalog was closed, when everything was validated.
  have sameBindings : ∀ name, (Catalog.after (earlier ++ .finalize :: later)).binding name =
      (Catalog.after earlier).binding name := by
    intro name
    unfold Catalog.binding
    rw [(Catalog.grown_since_closed valid).bindings]
  rw [sameBindings] at isOwner isChild
  have madeBy := Catalog.madeBy_after earlier
  have registered : ∀ {name : String} {binding : Binding (Memory × τ)},
      (Catalog.after earlier).binding name = .ok binding →
        (Catalog.after earlier).registry.find? name = some binding.resource :=
    fun bound => (madeBy.binding_registered bound).2
  have childChecked := Registry.checked valid (List.mem_of_find?_eq_some (registered isChild))
  have ownerChecked := Registry.checked valid (List.mem_of_find?_eq_some (registered isOwner))
  refine ⟨childChecked.key, ?_⟩
  have isEntry : (name, declared) ∈ owner.resource.relations := by
    unfold Resource.relation at isDeclared
    cases found : owner.resource.relations.lookup name with
    | none =>
        rw [found] at isDeclared
        cases isDeclared
    | some other =>
        rw [found] at isDeclared
        cases isDeclared
        exact Entries.mem_of_lookup found
  obtain ⟨target, isTarget, _, inTarget⟩ := ownerChecked.foreignKeys _ isEntry
  rw [Registry.resource, registered isChild] at isTarget
  cases isTarget
  exact inTarget ofOwner

/-- No index of an endpoint of the relation for another joining value lists the entity. -/
def Apart (relation : RelationEndpoint (Memory × τ)) (related : Endpoint (Memory × τ))
    (state : Memory × τ) (entity : Entity) : Prop :=
  ∀ parentKey earlier other later,
    (relation.forParent parentKey).perform earlier = (.ok other, later) →
      (relation.joiningValue related).same (relation.joiningValue other) = false →
        ∀ request, ¬ other.ListsKeyOf request state entity

/-- An entity belongs to what is related by a joining value: the index of the endpoint lists it
whenever it answers a request for everything, and no index for another joining value does. -/
structure Owns (relation : RelationEndpoint (Memory × τ)) (related : Endpoint (Memory × τ))
    (state : Memory × τ) (entity : Entity) : Prop where
  listed : ∀ request parameters answer after,
    related.readParameters request.query = .ok parameters → parameters.AsksForAll →
      (related.index request).perform state = (.ok answer, after) →
        related.ListsKeyOf request state entity
  apart : relation.Apart related state entity

variable {scope : Filter.Leaf} {value : Value} {state : Memory × τ}

theorem owns_of_keeps {entity : Entity} {kept : Entity → Entity → Prop}
    (ofOwner : relation.relation.kind ≠ .belongsTo)
    (respects : relation.child.authorizer.Respects Endpoint.Untouched kept)
    (uncounted : relation.child.resource.KeyUncounted)
    (made : scopeFor relation.relation.foreignKey value = .ok scope)
    (notNull : value ≠ .null) (equal : value.same value = true)
    (keyed : (relation.endpointFor scope value).IsKeyed state)
    (keeps : (relation.endpointFor scope value).Keeps relation.relation.foreignKey value state
      entity) :
    relation.Owns (relation.endpointFor scope value) state entity := by
  obtain ⟨row, isRow, itself, foreign, live⟩ := keeps
  have given := Value.isNull_eq_false.mpr notNull
  constructor
  · intro request parameters answer after read asksForAll done
    refine Endpoint.listsKey_of_inScope respects uncounted read asksForAll done
      (List.mem_map_of_mem isRow) ?_ live ?_
    · intro node isScope
      rw [List.mem_singleton.mp isScope, Filter.Node.evaluate, evaluate_scopeFor made, foreign,
        given, equal]
      rfl
    · rw [keyed.filed _ isRow]
      exact itself
  · -- A listed key is that of one row only, which would have to hold both joining values.
    rintro parentKey earlier other later forParent differs request ⟨listed, lists, shown, isShown,
      coincide⟩
    obtain ⟨parent, otherScope, otherMade, rfl⟩ := forParent_eq_ok ofOwner forParent
    rw [joiningValue_endpointFor, joiningValue_endpointFor] at differs
    obtain ⟨otherRow, inTable, inScope, isKey⟩ := lists.inScope respects uncounted shown
      isShown
    obtain ⟨entry, isEntry, rfl⟩ := List.mem_map.mp inTable
    have filed : entry.2.get relation.child.resource.keyName = entry.1 := keyed.filed entry isEntry
    rw [isKey.trans filed] at coincide
    obtain rfl := keyed.entry_eq isEntry isRow coincide
    have holds := inScope _ (List.mem_singleton_self _)
    rw [Filter.Node.evaluate, evaluate_scopeFor otherMade, foreign, differs, Bool.and_false,
      Bool.and_false] at holds
    cases holds

/-- The index of an endpoint of a relation answers a request for everything, when it is granted and
the keys of related rows can be sorted. -/
theorem index_everything {user : Value} {opened : Memory × τ} {kept : Entity → Entity → Prop}
    (respects : relation.child.authorizer.Respects Endpoint.Untouched kept)
    (keyColumn : relation.child.resource.keyName ∈ relation.child.resource.columns)
    (made : scopeFor relation.relation.foreignKey value = .ok scope)
    (keyed : (relation.endpointFor scope value).IsKeyed state)
    (sortable : Record.areSortable relation.child.resource.keyName
      ((state.1.contents.table relation.child.resource.name).rows.filter
        fun row => (row.get relation.relation.foreignKey).same value) = true)
    (authorized : ((relation.endpointFor scope value).authorizeListing (.everything user)).perform
      state = (.ok (), opened)) :
    ∃ answer, ((relation.endpointFor scope value).index (.everything user)).perform state =
      (.ok answer, opened) := by
  let live (row : Record) : Bool := Contents.inScope { resource := relation.child.resource } row
  let joined (row : Record) : Bool := (row.get relation.relation.foreignKey).same value
  let test (row : Record) : Bool := live row &&
    (!value.isNull && (!(row.get relation.relation.foreignKey).isNull && joined row))
  have matching : ∀ row, Contents.rowMatches
      { resource := relation.child.resource, wheres := [.leaf scope] } row = .ok (test row) := by
    intro row
    have scoping : Filter.evaluateAll row [.leaf scope] = .ok (!value.isNull &&
        (!(row.get relation.relation.foreignKey).isNull && joined row)) := by
      rw [Filter.evaluateAll, Filter.Node.evaluate, evaluate_scopeFor made]
      generalize (!value.isNull && _) = holds
      cases holds <;> rfl
    rw [Contents.rowMatches]
    change (if live row = true then _ else _) = Except.ok (live row && _)
    cases live row with
    | false => rfl
    | true =>
        rw [if_pos rfl, scoping, Bool.true_and]
        exact congrArg Except.ok (Bool.and_true _)
  refine Endpoint.index_everything respects keyColumn matching keyed ?_ authorized
  rw [Record.areSortable_iff] at sortable ⊢
  refine sortable.sublist ?_
  -- What is listed is a part of the related rows, whose keys can be sorted.
  have narrower : ∀ row, test row = (test row && joined row) := by
    intro row
    change (live row && (_ && (_ && joined row))) =
      ((live row && (_ && (_ && joined row))) && joined row)
    rw [Bool.and_assoc, Bool.and_assoc, Bool.and_assoc, Bool.and_self]
  have within : ∀ rows : List Record, (rows.filter joined).filter test = rows.filter test := by
    intro rows
    rw [List.filter_filter]
    exact List.filter_congr fun row _ => (narrower row).symm
  rw [← within]
  exact List.filter_sublist

/-- What is stored through a relation of a closed catalog belongs to its parent, whatever a payload
says about the foreign key, as long as the joining value of the parent is neither null nor NaN. -/
theorem stored_belongs {calls : List (Catalog.Call (Memory × τ))} {settings : Settings}
    {now : Moment} {parent name : String} {parentKey : Value} {earlier opened : Memory × τ}
    {before after : Memory × τ} {operation : Operation} {request : Request} {answer : Answer}
    (closed : (Catalog.after calls).finalized = true)
    (made : make (Catalog.after calls) settings now parent name = .ok relation)
    (ofOwner : relation.relation.kind ≠ .belongsTo)
    (silent : relation.child.hooksFor .store = .silent)
    (respects : relation.child.authorizer.Respects Endpoint.Untouched
      (Endpoint.KeepsField relation.relation.foreignKey))
    (uncounted : relation.child.resource.KeyUncounted)
    (forParent : (relation.forParent parentKey).perform earlier = (.ok related, opened))
    (notNull : relation.joiningValue related ≠ .null)
    (notNaN : (relation.joiningValue related).isNaN = false)
    (keyed : related.IsKeyed before)
    (stores : operation = .store ∨ operation = .batch .store)
    (done : (operation.perform related request).perform before = (.ok answer, after)) :
    (∃ entities, related.AnswersStored request before after operation entities answer ∧
      ∀ entity ∈ entities, relation.Owns related after entity) ∧
    ∀ user granted,
      (related.authorizeListing (.everything user)).perform after = (.ok (), granted) →
        Record.areSortable relation.child.resource.keyName
          ((after.1.contents.table relation.child.resource.name).rows.filter fun row =>
            (row.get relation.relation.foreignKey).same (relation.joiningValue related)) = true →
          ∃ listed, (related.index (.everything user)).perform after = (.ok listed, granted) := by
  obtain ⟨keyColumn, isColumn⟩ := make_columns closed made ofOwner
  obtain ⟨parentEntity, scope, madeScope, rfl⟩ := forParent_eq_ok ofOwner forParent
  rw [joiningValue_endpointFor] at notNull notNaN ⊢
  generalize parentEntity.get relation.ownerField = value at *
  -- The filter for a joining value is made of scalars only, and those but NaN equal themselves.
  have scalar : Filter.isScalar value = true := by
    unfold scopeFor at madeScope
    rw [if_neg fun isNull => notNull (Value.isNull_iff.mp isNull)] at madeScope
    exact (Filter.Leaf.make_eq_ok.mp madeScope).1
  have equal := Value.same_self scalar notNaN
  have ran : ∀ input outcome,
      ((relation.endpointFor scope value).runBatch .store request input).perform before =
        (.ok outcome, after) →
          outcome.response = none ∧ (relation.endpointFor scope value).IsKeyed after ∧
            ∀ entity ∈ outcome.entities, (relation.endpointFor scope value).Keeps
              relation.relation.foreignKey value after entity :=
    fun _ _ => Endpoint.runBatch_keeps silent respects isColumn notNull uncounted rfl keyed
  obtain ⟨keyedAfter, entities, stored, kept⟩ :=
    Endpoint.answersStored_of_answer ran stores done
  refine ⟨⟨entities, stored, fun entity isEntity => ?_⟩, ?_⟩
  · exact owns_of_keeps ofOwner respects uncounted madeScope notNull equal keyedAfter
      (kept entity isEntity)
  · intro user granted authorized sortable
    exact index_everything respects keyColumn madeScope keyedAfter sortable authorized

/-! ## Children of nodes -/

/-- The calls that bind a resource on its own and close the catalog. -/
def ownCalls (resource : Resource) (authorizer : Authorizer (Memory × Unit)) :
    List (Catalog.Call (Memory × Unit)) :=
  [.bind resource [.authorizer authorizer]] ++ [.finalize]

def ownRelation (resource : Resource) (relation : Relation)
    (authorizer : Authorizer (Memory × Unit)) : RelationEndpoint (Memory × Unit) where
  registry := ⟨[resource]⟩
  now := Samples.Library.trashedAt
  parent := { resource, authorizer }
  relation
  child := { resource, authorizer }

theorem make_ownRelation {resource : Resource} {relation : Relation} {name : String}
    (authorizer : Authorizer (Memory × Unit))
    (valid : (⟨[resource]⟩ : Registry).validate = .ok ())
    (declared : resource.relation name = .ok relation) (itself : relation.target = resource.name) :
    (Catalog.after (ownCalls resource authorizer)).finalized = true ∧
      make (Catalog.after (ownCalls resource authorizer)) {} Samples.Library.trashedAt
        resource.name name = .ok (ownRelation resource relation authorizer) := by
  have bound : (Catalog.after [.bind resource [.authorizer authorizer]] :
      Catalog (Memory × Unit)) =
        { registry := ⟨[resource]⟩, bindings := [(resource.name, { resource, authorizer })] } := rfl
  have found : ∀ catalog : Catalog (Memory × Unit),
      catalog.bindings = [(resource.name, { resource, authorizer })] →
        catalog.binding resource.name = .ok { resource, authorizer } := by
    intro catalog bindings
    simp [Catalog.binding, bindings]
  rw [ownCalls, Catalog.after_finalize (by rw [bound]; exact valid), bound]
  refine ⟨rfl, ?_⟩
  rw [make, found _ rfl]
  refine bind_eq_ok.mpr ⟨_, rfl, bind_eq_ok.mpr ⟨_, declared, bind_eq_ok.mpr ⟨_, ?_, rfl⟩⟩⟩
  rw [itself]
  exact found _ rfl

def children : Relation := ⟨"children", .hasMany, "nodes", "parent_id", none⟩

def childrenOf (number : Int) : Filter.Leaf := ⟨"parent_id", .eq, .int number, .both⟩

def secondsChild : Request where
  body := [("parent_id", .int 2)]

def firstsChild : Entity := (Store.treeEntity 4 (.int 1) .null []).markCreated

def grownTree : Memory where
  contents := { tables := [("nodes", Store.treeNodes.contents.table "nodes" ++
    [(.int 4, Store.treeRow 4 (.int 1) .null)])], sequences := [("nodes", 4)] }

theorem treeNodes_keyed : Table.Keyed "id" (Store.treeNodes.contents.table "nodes") where
  filed := by
    intro entry member
    cases member with
    | head => rfl
    | tail _ member =>
        cases member with
        | head => rfl
        | tail _ member =>
            cases member with
            | head => rfl
            | tail _ member => cases member
  distinct := by decide +kernel
  complete := by decide +kernel

set_option maxRecDepth 10000 in
/-- A child of the second node that is stored through the first one belongs to the first one. -/
theorem stored_belongs_tree :
    let relation := ownRelation Samples.Library.nodes children .allowAll
    let related := relation.endpointFor (childrenOf 1) (.int 1)
    make (Catalog.after (ownCalls Samples.Library.nodes .allowAll)) {} Samples.Library.trashedAt
        "nodes" "children" = .ok relation ∧
      (relation.forParent (.int 1)).Yields (Store.treeNodes, ()) related ∧
      (Operation.store.perform related secondsChild).perform (Store.treeNodes, ()) =
        (.ok (.envelope (.ofEntity [] firstsChild)), (grownTree, ())) ∧
      relation.Owns related (grownTree, ()) firstsChild ∧
      related.ListsKeyOf (.everything .null) (grownTree, ()) firstsChild := by
  intro relation related
  obtain ⟨closed, made⟩ := make_ownRelation .allowAll
    (show (⟨[Samples.Library.nodes]⟩ : Registry).validate = .ok () from rfl)
    (show Samples.Library.nodes.relation "children" = .ok children from rfl) rfl
  have forParent : (relation.forParent (.int 1)).Yields (Store.treeNodes, ()) related := by
    rw [Action.Yields]
    cbv
  have ran : (related.runBatch .store secondsChild
      (.given (.list [.object secondsChild.body]))).perform (Store.treeNodes, ()) =
        (.ok ⟨[firstsChild], none, []⟩, (grownTree, ())) := by
    cbv
  have respects : relation.child.authorizer.Respects Endpoint.Untouched
      (Endpoint.KeepsField "parent_id") := by
    intro ability subject user
    refine .pure ?_
    rintro entity changed rfl same
    cases same
    rfl
  have uncounted : ∀ name ∈ Samples.Library.nodes.aggregates,
      AggregateRequest.alias ⟨name⟩ ≠ Samples.Library.nodes.keyName := by
    decide +kernel
  have keyed : related.IsKeyed (Store.treeNodes, ()) := treeNodes_keyed
  have stores := Endpoint.store_of_ran (show related.storeAllowed = true from rfl) ran
  obtain ⟨⟨entities, stored, owns⟩, answers⟩ := stored_belongs closed made (by decide) rfl
    respects uncounted forParent (by rintro ⟨⟩) rfl keyed (.inl rfl) stores
  have sortable : Record.areSortable "id" ((grownTree.contents.table "nodes").rows.filter
      fun row => (row.get "parent_id").same (.int 1)) = true := by
    decide +kernel
  obtain ⟨listed, answered⟩ := answers .null (grownTree, ()) rfl sortable
  obtain ⟨outcome, entity, again, first, rfl⟩ := stored.of_store
  cases ran.symm.trans again
  cases first
  have belongs := owns firstsChild List.mem_cons_self
  exact ⟨made, forParent, stores, belongs, belongs.listed _ _ _ _
    (QueryParameters.ofRequest_everything _ _ _) ⟨rfl, rfl, rfl, by rintro ⟨⟩⟩ answered⟩

/-! ### What is lost -/

/-- What is stored for a parent is lost, for a resource without hooks that is related to itself: the
index of the endpoint does not list it, or that of an endpoint for another joining value does. -/
structure Loses (resource : Resource) (declared : Relation)
    (authorizer : Authorizer (Memory × Unit)) (memory : Memory) (parentKey : Value)
    (request : Request) : Prop where
  closed : (Catalog.after (ownCalls resource authorizer)).finalized = true
  made : make (Catalog.after (ownCalls resource authorizer)) {} Samples.Library.trashedAt
    resource.name declared.name = .ok (ownRelation resource declared authorizer)
  ofOwner : declared.kind ≠ .belongsTo
  hookless : (ownRelation resource declared authorizer).child.hooks = []
  lost : ∃ related answer after entity,
    ((ownRelation resource declared authorizer).forParent parentKey).Yields (memory, ()) related ∧
      (Operation.store.perform related request).perform (memory, ()) = (.ok answer, after) ∧
      related.AnswersStored request (memory, ()) after .store [entity] answer ∧
      ¬ (related.ListsKeyOf (.everything .null) after entity ∧
        (ownRelation resource declared authorizer).Apart related after entity)

theorem loses_of_ran {resource : Resource} {declared : Relation} {parentKey : Value}
    {authorizer : Authorizer (Memory × Unit)} {memory : Memory} {request : Request}
    {related : Endpoint (Memory × Unit)} {entity : Entity} {after : Memory × Unit}
    (valid : (⟨[resource]⟩ : Registry).validate = .ok ())
    (isDeclared : resource.relation declared.name = .ok declared)
    (itself : declared.target = resource.name) (ofOwner : declared.kind ≠ .belongsTo)
    (forParent : ((ownRelation resource declared authorizer).forParent parentKey).Yields
      (memory, ()) related)
    (allowed : related.storeAllowed = true)
    (ran : (related.runBatch .store request (.given (.list [.object request.body]))).perform
      (memory, ()) = (.ok ⟨[entity], none, []⟩, after))
    (amiss : ¬ (related.ListsKeyOf (.everything .null) after entity ∧
      (ownRelation resource declared authorizer).Apart related after entity)) :
    Loses resource declared authorizer memory parentKey request := by
  obtain ⟨closed, made⟩ := make_ownRelation authorizer valid isDeclared itself
  exact ⟨closed, made, ofOwner, rfl, related, _, after, entity, forParent,
    Endpoint.store_of_ran allowed ran, .single ran rfl, amiss⟩

theorem loses_of_unlisted {resource : Resource} {declared : Relation} {parentKey : Value}
    {authorizer : Authorizer (Memory × Unit)} {memory : Memory} {request : Request}
    (scope : Filter.Leaf) (value : Value) (entity : Entity)
    (valid : (⟨[resource]⟩ : Registry).validate = .ok ())
    (isDeclared : resource.relation declared.name = .ok declared)
    (itself : declared.target = resource.name) (ofOwner : declared.kind ≠ .belongsTo)
    (forParent : ((ownRelation resource declared authorizer).forParent parentKey).Yields
      (memory, ()) ((ownRelation resource declared authorizer).endpointFor scope value))
    (ran : ((((ownRelation resource declared authorizer).endpointFor scope value).runBatch .store
      request (.given (.list [.object request.body]))).perform (memory, ())).1 =
        .ok ⟨[entity], none, []⟩)
    (unlisted : ((ownRelation resource declared authorizer).endpointFor scope value).everythingHas
      .null ((((ownRelation resource declared authorizer).endpointFor scope value).runBatch .store
        request (.given (.list [.object request.body]))).perform (memory, ())).2 entity.key =
          false) :
    Loses resource declared authorizer memory parentKey request := by
  refine loses_of_ran valid isDeclared itself ofOwner forParent rfl (Prod.ext ran rfl) ?_
  rintro ⟨lists, -⟩
  cases unlisted.symm.trans (Endpoint.listsKeyOf_everything.mp lists)

/-- The relation of nodes to those below them, which are joined by the rank. -/
def outranked : Relation := ⟨"children", .hasMany, "nodes", "parent_id", some "rank"⟩

def rankedNodes : Resource :=
  { Samples.Library.nodes with
    includes := [], aggregates := [], relations := [("children", outranked)] }

def loneNode (rank : Value) : Memory where
  contents := { tables := [("nodes", [(.int 1, Store.treeRow 1 .null rank)])] }

set_option maxRecDepth 10000 in
/-- Nothing is below a node without a rank, not even what is stored there. -/
theorem unranked_loses : Loses rankedNodes outranked .allowAll (loneNode .null) (.int 1) {} := by
  refine loses_of_unlisted ⟨"parent_id", .isIn, .list [], .both⟩ .null
    (Store.treeEntity 2 .null .null []).markCreated rfl rfl rfl nofun ?_ ?_ ?_
  · rw [Action.Yields]
    cbv
  · cbv
  · cbv

set_option maxRecDepth 10000 in
theorem nanRank_loses :
    Loses rankedNodes outranked .allowAll (loneNode (.float (.nan 0))) (.int 1) {} := by
  refine loses_of_unlisted ⟨"parent_id", .eq, .float (.nan 0), .both⟩ (.float (.nan 0))
    (Store.treeEntity 2 (.float (.nan 0)) .null []).markCreated rfl rfl rfl nofun ?_ ?_ ?_
  · rw [Action.Yields]
    cbv
  · cbv
  · cbv

/-- A node and a child of it with a key that is not a number. -/
def wordedChild : Memory where
  contents := { tables := [("nodes", [(.int 1, Store.treeRow 1 .null .null),
    (.text "x", (Store.treeRow 0 (.int 1) .null).set "id" (.text "x"))])] }

set_option maxRecDepth 10000 in
theorem wordedChild_loses :
    Loses Samples.Library.nodes children .allowAll wordedChild (.int 1) {} := by
  refine loses_of_unlisted (childrenOf 1) (.int 1)
    (Store.treeEntity 2 (.int 1) .null []).markCreated rfl rfl rfl nofun ?_ ?_ ?_
  · rw [Action.Yields]
    cbv
  · cbv
  · cbv

/-- Parts with the column for their key that is named like a count. -/
def countedParts : Resource where
  name := "parts"
  model := { name := "Part", table := "parts", columns := [
    { Samples.countedKey with name := "parts_count" }, Samples.optional "whole" .integer] }
  keyName := "parts_count"
  aggregates := ["parts"]
  relations := [Samples.hasMany "parts" "parts" "whole"]

def lonePart : Memory where
  contents := { tables := [("parts", [(.int 1, [("parts_count", .int 1), ("whole", .null)])])] }

set_option maxRecDepth 10000 in
theorem countedPart_loses :
    Loses countedParts ⟨"parts", .hasMany, "parts", "whole", none⟩ .allowAll lonePart (.int 1)
      { query := [("with_count", .text "parts")] } := by
  refine loses_of_unlisted ⟨"whole", .eq, .int 1, .both⟩ (.int 1)
    (.mk "parts" (.int 0) [("parts_count", .int 0), ("whole", .int 1)] [] true) rfl rfl rfl nofun
    ?_ ?_ ?_
  · rw [Action.Yields]
    cbv
  · cbv
  · cbv

/-- An authorizer that grants an entity only below the node with number two. -/
def movingAuthorizer : Authorizer (Memory × Unit) := fun _ subject _ =>
  match subject with
  | .entity entity =>
      pure (.entity (entity.withAttributes (entity.attributes.set "parent_id" (.int 2))))
  | .value value => pure (.value value)

set_option maxRecDepth 10000 in
theorem moved_loses :
    Loses Samples.Library.nodes children movingAuthorizer (loneNode .null) (.int 1) {} := by
  refine loses_of_unlisted (childrenOf 1) (.int 1)
    (Store.treeEntity 2 (.int 2) .null []).markCreated rfl rfl rfl nofun ?_ ?_ ?_
  · rw [Action.Yields]
    cbv
  · cbv
  · cbv

/-- An authorizer that removes the second node before any listing. -/
def removingAuthorizer : Authorizer (Memory × Unit) := fun ability subject _ => do
  if ability = .viewAny then
    let _ ← Store.delete Samples.Library.nodes (.int 2)
    pure subject
  else pure subject

set_option maxRecDepth 10000 in
theorem removed_loses :
    Loses Samples.Library.nodes children removingAuthorizer (loneNode .null) (.int 1) {} := by
  refine loses_of_unlisted (childrenOf 1) (.int 1)
    (Store.treeEntity 2 (.int 1) .null []).markCreated rfl rfl rfl nofun ?_ ?_ ?_
  · rw [Action.Yields]
    cbv
  · cbv
  · cbv

/-- An authorizer that grants everything but listings. -/
def secretiveAuthorizer : Authorizer (Memory × Unit) := fun ability subject _ =>
  if ability = .viewAny then throw (.denied ability) else pure subject

set_option maxRecDepth 10000 in
theorem denied_loses :
    Loses Samples.Library.nodes children secretiveAuthorizer (loneNode .null) (.int 1) {} := by
  refine loses_of_unlisted (childrenOf 1) (.int 1)
    (Store.treeEntity 2 (.int 1) .null []).markCreated rfl rfl rfl nofun ?_ ?_ ?_
  · rw [Action.Yields]
    cbv
  · cbv
  · cbv

/-- A child of the third node that holds the key two in a row of another key. -/
def misfiledNodes : Memory where
  contents := { tables := [("nodes", [(.int 1, Store.treeRow 1 .null .null),
    (.int 3, Store.treeRow 3 .null .null), (.int 5, Store.treeRow 2 (.int 3) .null)])] }

def confusedNodes : Memory where
  contents := { tables := [("nodes", misfiledNodes.contents.table "nodes" ++
    [(.int 2, Store.treeRow 2 (.int 1) .null)])], sequences := [("nodes", 2)] }

set_option maxRecDepth 10000 in
/-- The key of what is stored below one node may be listed below another. -/
theorem misfiled_loses :
    Loses Samples.Library.nodes children .allowAll misfiledNodes (.int 1) {} := by
  have forParent : ∀ number, number = 1 ∨ number = 3 →
      ((ownRelation Samples.Library.nodes children .allowAll).forParent (.int number)).Yields
        (misfiledNodes, ()) ((ownRelation Samples.Library.nodes children .allowAll).endpointFor
          (childrenOf number) (.int number)) := by
    rintro number (rfl | rfl)
    · rw [Action.Yields]
      cbv
    · rw [Action.Yields]
      cbv
  have ran : (((ownRelation Samples.Library.nodes children .allowAll).endpointFor (childrenOf 1)
      (.int 1)).runBatch .store {} (.given (.list [.object []]))).perform (misfiledNodes, ()) =
        (.ok ⟨[(Store.treeEntity 2 (.int 3) .null []).markCreated], none, []⟩,
          (confusedNodes, ())) := by
    cbv
  have listed : ((ownRelation Samples.Library.nodes children .allowAll).endpointFor (childrenOf 3)
      (.int 3)).everythingHas .null (confusedNodes, ()) (.int 2) = true := by
    cbv
  refine loses_of_ran rfl rfl rfl (by decide) (forParent 1 (.inl rfl)) rfl ran ?_
  rintro ⟨-, apart⟩
  exact apart _ _ _ _ (forParent 3 (.inr rfl)) rfl (.everything .null)
    (Endpoint.listsKeyOf_everything.mpr listed)

/-- What is stored for a parent may be lost: where the joining value is null or NaN, where keys
cannot be sorted, are hidden by a count or are those of other rows, and by an authorizer that moves
entities, writes to the store, or denies the listing. -/
theorem stored_astray :
    Loses rankedNodes outranked .allowAll (loneNode .null) (.int 1) {} ∧
      Loses rankedNodes outranked .allowAll (loneNode (.float (.nan 0))) (.int 1) {} ∧
      Loses Samples.Library.nodes children .allowAll wordedChild (.int 1) {} ∧
      Loses countedParts ⟨"parts", .hasMany, "parts", "whole", none⟩ .allowAll lonePart (.int 1)
        { query := [("with_count", .text "parts")] } ∧
      Loses Samples.Library.nodes children .allowAll misfiledNodes (.int 1) {} ∧
      Loses Samples.Library.nodes children movingAuthorizer (loneNode .null) (.int 1) {} ∧
      Loses Samples.Library.nodes children removingAuthorizer (loneNode .null) (.int 1) {} ∧
      Loses Samples.Library.nodes children secretiveAuthorizer (loneNode .null) (.int 1) {} :=
  ⟨unranked_loses, nanRank_loses, wordedChild_loses, countedPart_loses, misfiled_loses, moved_loses,
    removed_loses, denied_loses⟩

end RelationEndpoint

end ResourceServer
