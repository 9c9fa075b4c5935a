import ResourceServer.Proofs.Query.Listing
import ResourceServer.Proofs.Resolution.Requests
import ResourceServer.Proofs.Store.EagerLoading
import ResourceServer.Proofs.Store.Parts

/-!
# Viewing one of many

One entity is viewed by the query of a listing narrowed to its key.  The narrowed query finds
those rows of the listing that have the key, and what is loaded for one row does not depend on
the rows beside it.  So the view shows an entity of the listing, or nothing where the listing has
none with that key.
-/

namespace ResourceServer

/-! ## Rows with a key -/

theorem Filter.evaluateAll_concat {row : Record} {nodes : List Node} {node : Node}
    {holds last : Bool} (done : evaluateAll row nodes = .ok holds)
    (evaluates : node.evaluate row = .ok last) :
    evaluateAll row (nodes ++ [node]) = .ok (holds && last) := by
  induction nodes with
  | nil =>
      cases done
      rw [List.nil_append, evaluateAll, evaluates]
      cases last <;> rfl
  | cons first rest induction =>
      rw [evaluateAll, bind_eq_ok] at done
      obtain ⟨passes, firstDone, done⟩ := done
      rw [List.cons_append, evaluateAll, firstDone]
      cases passes with
      | true => exact induction done
      | false =>
          cases done
          rfl

theorem Record.exists_sortBy {field : String} {rows : List Record} (direction : SortDirection)
    (sortable : areSortable field rows = true) :
    ∃ sorted, sortBy field direction rows = .ok sorted := by
  rw [sortBy, sortable]
  cases rows.any fun row => (Record.get row field).isNaN with
  | true => exact ⟨_, rfl⟩
  | false => exact ⟨_, rfl⟩

theorem Record.areSortable_of_sortBy {field : String} {direction : SortDirection}
    {rows sorted : List Record} (done : sortBy field direction rows = .ok sorted) :
    areSortable field rows = true := by
  cases known : areSortable field rows with
  | true => rfl
  | false =>
      rw [sortBy, known] at done
      cases done

theorem Record.sortBy_of_sublist {field : String} {direction : SortDirection}
    {rows part sorted : List Record} (sublist : part.Sublist rows)
    (done : sortBy field direction rows = .ok sorted) :
    ∃ others, sortBy field direction part = .ok others :=
  exists_sortBy direction
    (areSortable_iff.mpr ((areSortable_iff.mp (areSortable_of_sortBy done)).sublist sublist))

namespace Contents

variable {registry : Registry} {contents : Contents} {spec : QuerySpec}

theorem rowMatches_leafIn {field : String} {values : List Value} (given : .null ∉ values)
    {row : Record} {holds : Bool} (matching : rowMatches spec row = .ok holds) :
    rowMatches (spec.whereNode (.leaf (Store.leafIn field values))) row =
      .ok (holds && (row.get field).isIn values) := by
  have evaluates : (Filter.Node.leaf (Store.leafIn field values)).evaluate row =
      .ok ((row.get field).isIn values) := Store.evaluate_leafIn given row
  unfold rowMatches at matching ⊢
  change (if inScope spec row then _ else _) = _
  cases scope : inScope spec row with
  | false =>
      rw [scope] at matching
      cases matching
      rfl
  | true =>
      rw [scope, if_pos rfl, bind_eq_ok] at matching
      obtain ⟨filtered, filters, matching⟩ := matching
      cases matching
      rw [if_pos rfl, bind_eq_ok]
      refine ⟨_, Filter.evaluateAll_concat filters evaluates, ?_⟩
      rw [Bool.and_right_comm]
      rfl

/-- The first row with a key is one of those that a query without an order of its own shows with
that key. -/
theorem fetchRows_ofKey {values : List Value} {rows : List Record} (given : .null ∉ values)
    (unsorted : spec.sorts = []) (uncounted : spec.resource.keyName ∉ spec.aggregateAliases)
    (fetched : contents.fetchRows registry spec none none = .ok rows)
    (keyed : ∀ row ∈ rows, Record.has row spec.resource.keyName = true) :
    ∃ found : List Record,
      found.Perm (rows.filter fun row => (Record.get row spec.resource.keyName).isIn values) ∧
      contents.fetchRows registry
        (spec.whereNode (.leaf (Store.leafIn spec.resource.keyName values))) none (some 1) =
          .ok (found.take 1) := by
  obtain ⟨selected, byKey, sorted, selection, complete, sorting, resorting, rfl⟩ :=
    fetchRows_eq_ok.mp fetched
  rw [unsorted] at resorting
  cases resorting
  rw [window_none] at keyed
  have held : ∀ row counted, withCounts registry contents spec row = .ok counted →
      Record.get counted spec.resource.keyName = Record.get row spec.resource.keyName := by
    intro row counted counts
    cases get_withCounts counts with
    | inl isCount => exact absurd isCount.1 uncounted
    | inr kept => exact kept.2
  have narrowSelection := selectRows_narrow
    (fun row _ holds matching => rowMatches_leafIn given matching)
    (fun row _ counted counts => congrArg (Value.isIn · values) (held row counted counts)) selection
  obtain ⟨arranged, rearranging⟩ := Record.sortBy_of_sublist List.filter_sublist sorting
  refine ⟨arranged.map (Record.project · (resultNames spec)), ?_, ?_⟩
  · have shown : ∀ row ∈ byKey, (Record.get (Record.project row (resultNames spec))
        spec.resource.keyName) = Record.get row spec.resource.keyName := by
      intro row isRow
      exact Record.get_project (Record.has_project.mp (keyed _ (List.mem_map_of_mem isRow)))
    have picked : (byKey.map (Record.project · (resultNames spec))).filter
        (fun row => (Record.get row spec.resource.keyName).isIn values) =
          (byKey.filter fun row => (Record.get row spec.resource.keyName).isIn values).map
            (Record.project · (resultNames spec)) := by
      rw [List.filter_map]
      refine congrArg (List.map _) (List.filter_congr fun row isRow => ?_)
      rw [Function.comp_apply, shown row isRow]
    rw [window_none, picked]
    refine List.Perm.map _ ((Record.sortBy_perm rearranging).trans ?_)
    exact ((Record.sortBy_perm sorting).filter _).symm
  · refine fetchRows_eq_ok.mpr ⟨_, arranged, arranged, narrowSelection, ?_, rearranging, ?_, ?_⟩
    · exact fun row isKept => complete row (List.mem_of_mem_filter isKept)
    · change Record.sortByAll spec.sorts arranged = _
      rw [unsorted]
      rfl
    · rw [← List.map_take]
      refine congrArg (List.map _) ?_
      exact (sliceBetween_of_nonneg (Int.le_refl 0) Int.one_nonneg arranged).symm

end Contents

namespace Store

variable {τ : Type} {registry : Registry} {memory : Memory} {side : τ} {spec : QuerySpec}

theorem hydrate_congr {σ : Type} [Store σ] {other : QuerySpec}
    (sameResource : other.resource = spec.resource) (sameIncludes : other.includes = spec.includes)
    (rows : List Record) :
    (hydrate registry other rows : Action σ _) = hydrate registry spec rows := by
  unfold hydrate includeDepth
  rw [sameIncludes]
  exact hydrateTo_congr sameResource sameIncludes rows

/-- The first entity with a key is one of the listed ones with that key, with all that is loaded for
it in the listing; there is none when none is listed. -/
theorem first_listed {key : Value} {listed : List Entity} (scalar : Filter.isScalar key = true)
    (unsorted : spec.sorts = []) (uncounted : spec.resource.keyName ∉ spec.aggregateAliases)
    (narrows : registry.Narrows memory.contents spec.resource spec.includes)
    (done : (get registry spec).Yields (memory, side) listed) :
    ∃ found, (first registry (spec.whereNode (.leaf (leafIn spec.resource.keyName [key])))).Yields
        (memory, side) found ∧
      (found = none ∧
          (∀ entity ∈ listed, (entity.get spec.resource.keyName).coincides key = false) ∨
        ∃ entity ∈ listed, found = some entity ∧
          (entity.get spec.resource.keyName).coincides key = true) := by
  have given : .null ∉ [key] := by
    intro isNull
    rw [← List.mem_singleton.mp isNull] at scalar
    cases scalar
  rw [← getTo_eq_get le_rfl] at done
  obtain ⟨rows, fetched, hydrated⟩ := getTo_yields.mp done
  have keyed := ((hydrateTo_ensures registry _ spec rows).relatesOk hydrated).2.1
  obtain ⟨load, attributes, rfl, parts⟩ := hydrateTo_parts narrows hydrated
  have keyOf : ∀ row, (load row).get spec.resource.keyName =
      Record.get row spec.resource.keyName :=
    fun row => congrArg (Record.get · _) (attributes row)
  obtain ⟨found, permutation, narrowed⟩ :=
    Contents.fetchRows_ofKey given unsorted uncounted fetched keyed
  have isListed : ∀ row ∈ found, row ∈ rows ∧
      (Record.get row spec.resource.keyName).isIn [key] = true := by
    intro row isFound
    exact List.mem_filter.mp (permutation.subset isFound)
  have loaded := parts (found.take 1) fun row member =>
    (isListed row (List.mem_of_mem_take member)).1
  have sameLoading : (hydrate registry (spec.whereNode
      (.leaf (leafIn spec.resource.keyName [key]))) (found.take 1) : Action (Memory × τ) _) =
        hydrate registry spec (found.take 1) := by
    apply hydrate_congr
    · rfl
    · rfl
  rw [← hydrate, ← sameLoading] at loaded
  refine ⟨_, .bind (Memory.yields_fetchRows.mpr narrowed) (.bind loaded rfl), ?_⟩
  cases found with
  | nil =>
      refine .inl ⟨rfl, ?_⟩
      intro entity isEntity
      obtain ⟨row, isRow, rfl⟩ := List.mem_map.mp isEntity
      rw [keyOf row, ← Bool.not_eq_true]
      intro coincide
      have isFound := permutation.symm.subset
        (List.mem_filter.mpr ⟨isRow, by simp [Value.isIn, coincide]⟩)
      cases isFound
  | cons row rest =>
      obtain ⟨isRow, coincide⟩ := isListed row List.mem_cons_self
      refine .inr ⟨load row, List.mem_map_of_mem isRow, rfl, ?_⟩
      rw [keyOf row]
      simpa [Value.isIn] using coincide

end Store

/-! ## Requests that only look -/

/-- The authorizer grants every ability and leaves the store and the subject as they are. -/
def Authorizer.GrantsAll {σ : Type} (authorizer : Authorizer σ) : Prop :=
  ∀ ability subject user state, (authorizer ability subject user).Yields state subject

theorem Authorizer.allowAll_grantsAll {σ : Type} : (allowAll : Authorizer σ).GrantsAll :=
  fun _ _ _ _ => rfl

namespace Request

/-- The names of the parameters that say how an entity is shown. -/
def viewParameters : List String :=
  ["fields", "include", "with_count", "with_trashed", "only_trashed"]

def withLimit (request : Request) (limit : Value) : Request :=
  { request with query := request.query.set "limit" limit }

end Request

section Reading

variable {settings : Settings} {resource : Resource} {request : Request} {limit : Value}

theorem get?_withLimit {name : String} (other : name ≠ "limit") :
    (request.withLimit limit).query.get? name = request.query.get? name := by
  rw [Request.withLimit, Record.get?_set, if_neg other]

/-- Without a limit a query that says how entities are shown asks for all of them. -/
theorem QueryParameters.ofRequest_withLimit {parameters : QueryParameters}
    (plain : ∀ name ∈ request.query.names, name ∈ Request.viewParameters)
    (unlimited : Parameter.integer "limit" 0 limit = .ok 0)
    (read : ofRequest settings resource (request.withLimit limit).query = .ok parameters) :
    ∃ columns aggregates trashed, readColumns resource request.query = .ok columns ∧
      readAggregates resource request.query = .ok aggregates ∧
      TrashedScope.ofRequest resource request.query = .ok trashed ∧
      parameters = { pagination := ⟨1, 0, true⟩, columns, aggregates, trashed } := by
  have missing : ∀ name ∈ ["filters", "search", "sort", "page"],
      (request.withLimit limit).query.get? name = none := by
    intro name isName
    have other : name ≠ "limit" ∧ name ∉ Request.viewParameters := by
      revert name
      decide
    rw [get?_withLimit other.1, Record.get?_eq_none]
    exact fun given => other.2 (plain name given)
  have given : (request.withLimit limit).query.get? "limit" = some limit := by
    rw [Request.withLimit, Record.get?_set, if_pos rfl]
  have same : ∀ name ∈ Request.viewParameters,
      (request.withLimit limit).query.get? name = request.query.get? name := by
    intro name isName
    refine get?_withLimit ?_
    rintro rfl
    exact absurd isName (by decide)
  have value : ∀ name ∈ Request.viewParameters,
      (request.withLimit limit).query.get name = request.query.get name :=
    fun name isName => congrArg (Option.getD · Value.null) (same name isName)
  rw [ofRequest_listing fun name isName => missing name (by revert name; decide)] at read
  obtain ⟨pagination, paged, read⟩ := bind_eq_ok.mp read
  obtain ⟨columns, isColumns, read⟩ := bind_eq_ok.mp read
  obtain ⟨aggregates, isAggregates, read⟩ := bind_eq_ok.mp read
  obtain ⟨trashed, isTrashed, read⟩ := bind_eq_ok.mp read
  cases read
  rw [readColumns, value "fields" (by decide)] at isColumns
  rw [readAggregates, value "with_count" (by decide)] at isAggregates
  rw [TrashedScope.ofRequest, same "only_trashed" (by decide),
    same "with_trashed" (by decide)] at isTrashed
  refine ⟨columns, aggregates, trashed, isColumns, isAggregates, isTrashed, ?_⟩
  rw [PaginationRequest.ofRequest, missing "page" (by decide), given, Option.getD_some,
    unlimited] at paged
  obtain ⟨page, _, paged⟩ := bind_eq_ok.mp paged
  change (if settings.pagination.disabled || decide ((0 : Int) = 0) then _ else _) = _ at paged
  rw [decide_eq_true rfl, Bool.or_true, if_pos rfl] at paged
  cases paged
  rfl

theorem RelationRequest.ofRequest_withLimit (registry : Registry) :
    ofRequest registry settings resource (request.withLimit limit) =
      ofRequest registry settings resource request := by
  unfold ofRequest Request.input
  rw [get?_withLimit (by decide)]
  rfl

theorem QuerySpec.ofKeys_eq {parameters : QueryParameters} {requests : List RelationRequest}
    {scopes : List Filter.Node} {spec : QuerySpec} {keys : List Value}
    (built : ofParameters resource parameters requests scopes = .ok spec)
    (scalars : ∀ key ∈ keys, Filter.isScalar key = true) :
    ofKeys resource parameters requests scopes keys =
      .ok (spec.whereNode (.leaf (Store.leafIn resource.keyName keys))) := by
  have made : Filter.Leaf.make resource.keyName .isIn (.list keys) =
      .ok (Store.leafIn resource.keyName keys) :=
    Filter.Leaf.make_eq_ok.mpr ⟨⟨keys, rfl, scalars⟩, rfl⟩
  rw [ofKeys, built]
  change (Filter.Leaf.make _ _ _ >>= _) = _
  rw [made]
  rfl

end Reading

/-! ## The view of an entity -/

theorem Envelope.data_ofEntities (requested : List RelationRequest) (entities : List Entity) :
    (Envelope.ofEntities requested entities).data =
      .list (entities.map fun entity => (Envelope.ofEntity requested entity).data) := by
  unfold Envelope.ofEntities Envelope.dataOf guardEntities
  rw [restrictEntities_eq_map, List.map_map]
  rfl

namespace Endpoint

variable {τ : Type} {endpoint : Endpoint (Memory × τ)} {memory : Memory} {side : τ}
variable {request : Request}

/-- The entities that a listing of everything shows, with the relations that are asked for. -/
structure Lists (endpoint : Endpoint (Memory × τ)) (request : Request) (state : Memory × τ)
    (requested : List RelationRequest) (listed : List Entity) : Prop where
  relations : endpoint.readRelations request = .ok requested
  entities : ∃ parameters spec, endpoint.readParameters request.query = .ok parameters ∧
    QuerySpec.ofParameters endpoint.resource parameters requested endpoint.scopes = .ok spec ∧
      (Store.get endpoint.registry spec).Yields state listed
  answer : (endpoint.index request).Yields state (.envelope (.ofEntities requested listed))

/-- The view of a key agrees with the listing of everything: it shows one of the listed entities
with the key just as the listing does, or does not find the key where none is listed with it. -/
def ViewsListed (endpoint : Endpoint (Memory × τ)) (state : Memory × τ) (request : Request)
    (limit key found : Value) : Prop :=
  ∃ requested listed, endpoint.Lists (request.withLimit limit) state requested listed ∧
    (Envelope.ofEntities requested listed).data =
      .list (listed.map fun entity => (Envelope.ofEntity requested entity).data) ∧
    ((∀ entity ∈ listed, (entity.get endpoint.resource.keyName).coincides found = false) ∧
        (endpoint.view request key).perform state =
          (.error (.notFound endpoint.name found), state) ∨
      ∃ entity ∈ listed, (entity.get endpoint.resource.keyName).coincides found = true ∧
        (endpoint.view request key).Yields state (.envelope (.ofEntity requested entity)))

theorem index_lists {requested : List RelationRequest} {parameters : QueryParameters}
    {spec : QuerySpec} {listed : List Entity}
    (grants : endpoint.binding.authorizer.GrantsAll)
    (read : endpoint.readParameters request.query = .ok parameters)
    (disabled : parameters.pagination.disabled = true)
    (relations : endpoint.readRelations request = .ok requested)
    (built : QuerySpec.ofParameters endpoint.resource parameters requested endpoint.scopes =
      .ok spec)
    (got : (Store.get endpoint.registry spec).Yields (memory, side) listed) :
    endpoint.Lists request (memory, side) requested listed := by
  refine ⟨relations, ⟨parameters, spec, read, built, got⟩, ?_⟩
  have authorized : (endpoint.authorizeListing request).Yields (memory, side) () :=
    (grants _ _ _ _).bind rfl
  refine index_eq_ok.mpr ⟨_, parameters, authorized, read, ?_⟩
  refine collection_eq_ok.mpr ⟨requested, spec, relations, built, ?_⟩
  rw [if_pos disabled]
  exact ⟨listed, got, rfl⟩

theorem lists_iff {requested others : List RelationRequest} {parameters : QueryParameters}
    {spec : QuerySpec} {listed : List Entity}
    (grants : endpoint.binding.authorizer.GrantsAll)
    (read : endpoint.readParameters request.query = .ok parameters)
    (disabled : parameters.pagination.disabled = true)
    (relations : endpoint.readRelations request = .ok requested)
    (built : QuerySpec.ofParameters endpoint.resource parameters requested endpoint.scopes =
      .ok spec) :
    endpoint.Lists request (memory, side) others listed ↔
      others = requested ∧ (Store.get endpoint.registry spec).Yields (memory, side) listed := by
  constructor
  · intro lists
    obtain ⟨_, _, readAgain, builtAgain, got⟩ := lists.entities
    cases relations.symm.trans lists.relations
    cases read.symm.trans readAgain
    cases built.symm.trans builtAgain
    exact ⟨rfl, got⟩
  · rintro ⟨rfl, got⟩
    exact index_lists grants read disabled relations built got

/-- What a listing of everything is made from, when nothing narrows or orders it. -/
theorem index_withLimit_eq_ok {limit : Value} {answer : Answer} {after : Memory × τ}
    (grants : endpoint.binding.authorizer.GrantsAll)
    (plain : ∀ name ∈ request.query.names, name ∈ Request.viewParameters)
    (unlimited : Parameter.integer "limit" 0 limit = .ok 0)
    (done : (endpoint.index (request.withLimit limit)).perform (memory, side) =
      (.ok answer, after)) :
    ∃ columns aggregates trashed requested spec listed,
      readColumns endpoint.resource request.query = .ok columns ∧
      readAggregates endpoint.resource request.query = .ok aggregates ∧
      TrashedScope.ofRequest endpoint.resource request.query = .ok trashed ∧
      endpoint.readRelations request = .ok requested ∧
      QuerySpec.ofParameters endpoint.resource { columns, aggregates, trashed } requested
        endpoint.scopes = .ok spec ∧
      (Store.get endpoint.registry spec).Yields (memory, side) listed ∧
      endpoint.Lists (request.withLimit limit) (memory, side) requested listed := by
  obtain ⟨opened, parameters, authorized, read, done⟩ := index_eq_ok.mp done
  obtain ⟨_, same, asked, authorized⟩ := Action.perform_bind_eq_ok.mp authorized
  cases authorized
  cases (grants _ _ _ _).symm.trans asked
  obtain ⟨columns, aggregates, trashed, isColumns, isAggregates, isTrashed, rfl⟩ :=
    QueryParameters.ofRequest_withLimit plain unlimited read
  obtain ⟨requested, spec, relations, built, done⟩ := collection_eq_ok.mp done
  rw [if_pos rfl] at done
  obtain ⟨listed, got, _⟩ := done
  obtain ⟨rfl, _⟩ := Store.get_eq_ok got
  have lists := index_lists grants read rfl relations built got
  rw [readRelations, RelationRequest.ofRequest_withLimit] at relations
  exact ⟨columns, aggregates, trashed, requested, spec, listed, isColumns, isAggregates,
    isTrashed, relations, built, got, lists⟩

/-- How an entity is viewed: the first one with the key is fetched and shown. -/
theorem perform_view {key found : Value} {columns : Option (List String)}
    {aggregates : List AggregateRequest} {trashed : TrashedScope}
    {requested : List RelationRequest} {spec : QuerySpec} {entity? : Option Entity}
    (grants : endpoint.binding.authorizer.GrantsAll)
    (isKey : endpoint.resource.coerceKey key = .ok found)
    (isColumns : readColumns endpoint.resource request.query = .ok columns)
    (isAggregates : readAggregates endpoint.resource request.query = .ok aggregates)
    (isTrashed : TrashedScope.ofRequest endpoint.resource request.query = .ok trashed)
    (relations : endpoint.readRelations request = .ok requested)
    (built : QuerySpec.ofKeys endpoint.resource { columns, aggregates, trashed } requested
      endpoint.scopes [found] = .ok spec)
    (first : (Store.first endpoint.registry spec).Yields (memory, side) entity?) :
    (endpoint.view request key).perform (memory, side) =
      (match entity? with
        | none => .error (.notFound endpoint.name found)
        | some entity => .ok (.envelope (.ofEntity requested entity)), (memory, side)) := by
  refine (Action.perform_bind_ok (Action.yields_ofExcept.mpr isKey) _).trans ?_
  refine (Action.perform_bind_ok (Action.yields_ofExcept.mpr isColumns) _).trans ?_
  refine (Action.perform_bind_ok (Action.yields_ofExcept.mpr isAggregates) _).trans ?_
  refine (Action.perform_bind_ok (Action.yields_ofExcept.mpr isTrashed) _).trans ?_
  refine (Action.perform_bind_ok (Action.yields_ofExcept.mpr relations) _).trans ?_
  refine (Action.perform_bind_ok (Action.yields_ofExcept.mpr built) _).trans ?_
  refine (Action.perform_bind_ok first _).trans ?_
  cases entity? with
  | none => rfl
  | some entity =>
      have checked : (endpoint.binding.authorizer.checkEntity .view entity request.user).Yields
          (memory, side) entity := (grants _ _ _ _).bind rfl
      exact checked.bind rfl

/-- An entity is viewed as it is listed, with the same relations, counts and columns, as long as the
listing answers, no NaN is among the keys of related rows and no count hides the key. -/
theorem view_listed {key found limit : Value} {answer : Answer} {after : Memory × τ}
    (grants : endpoint.binding.authorizer.GrantsAll)
    (plain : ∀ name ∈ request.query.names, name ∈ Request.viewParameters)
    (unlimited : Parameter.integer "limit" 0 limit = .ok 0)
    (isKey : endpoint.resource.coerceKey key = .ok found)
    (scalar : Filter.isScalar found = true)
    (uncounted : ∀ aggregates, readAggregates endpoint.resource request.query = .ok aggregates →
      endpoint.resource.keyName ∉ aggregates.map AggregateRequest.alias)
    (narrows : ∀ requested, endpoint.readRelations request = .ok requested →
      endpoint.registry.Narrows memory.contents endpoint.resource (mergeRequests requested))
    (done : (endpoint.index (request.withLimit limit)).perform (memory, side) =
      (.ok answer, after)) :
    endpoint.ViewsListed (memory, side) request limit key found := by
  obtain ⟨columns, aggregates, trashed, requested, spec, listed, isColumns, isAggregates,
    isTrashed, relations, built, got, lists⟩ :=
    index_withLimit_eq_ok grants plain unlimited done
  refine ⟨requested, listed, lists, Envelope.data_ofEntities requested listed, ?_⟩
  have narrowed := QuerySpec.ofKeys_eq built fun key isFound =>
    (congrArg (Filter.isScalar ·) (List.mem_singleton.mp isFound)).trans scalar
  obtain ⟨selected, rfl⟩ := QuerySpec.ofParameters_eq_ok built
  have notCounted : endpoint.resource.keyName ∉ (QueryParameters.effectiveAggregates
      { columns, aggregates, trashed } endpoint.resource).map AggregateRequest.alias := by
    rw [QueryParameters.effectiveAggregates_of_unsorted rfl]
    exact uncounted aggregates isAggregates
  obtain ⟨entity?, first, outcome⟩ :=
    Store.first_listed scalar rfl notCounted (narrows requested relations) got
  have viewed := perform_view grants isKey isColumns isAggregates isTrashed relations narrowed first
  obtain ⟨rfl, none⟩ | ⟨entity, isListed, rfl, coincide⟩ := outcome
  · exact .inl ⟨none, viewed⟩
  · exact .inr ⟨entity, isListed, coincide, viewed⟩

def treeEndpoint : Endpoint (Memory × Unit) where
  registry := Store.nodeRegistry
  now := Samples.Library.trashedAt
  binding := { resource := Samples.Library.nodes }

def withChildren : Request where
  query := [("include", .text "children")]

def nodesWithChildren : QuerySpec where
  resource := Samples.Library.nodes
  includes := [{ path := "children" }]

theorem lists_withChildren {memory : Memory} {requested : List RelationRequest}
    {listed : List Entity} :
    treeEndpoint.Lists (withChildren.withLimit (.int 0)) (memory, ()) requested listed ↔
      requested = [{ path := "children" }] ∧
        (Store.get Store.nodeRegistry nodesWithChildren).Yields (memory, ()) listed := by
  have read : treeEndpoint.readParameters (withChildren.withLimit (.int 0)).query =
      .ok { pagination := ⟨1, 0, true⟩ } := by
    with_unfolding_all rfl
  have relations : treeEndpoint.readRelations (withChildren.withLimit (.int 0)) =
      .ok [{ path := "children" }] := by
    with_unfolding_all rfl
  have built : QuerySpec.ofParameters treeEndpoint.resource { pagination := ⟨1, 0, true⟩ }
      [{ path := "children" }] treeEndpoint.scopes = .ok nodesWithChildren := by
    with_unfolding_all rfl
  exact lists_iff Authorizer.allowAll_grantsAll read rfl relations built

set_option maxRecDepth 10000 in
theorem view_listed_tree :
    treeEndpoint.binding.authorizer.GrantsAll ∧
      ((treeEndpoint.view withChildren (.text "3")).perform (Store.treeNodes, ())).1.isOk = true ∧
      treeEndpoint.ViewsListed (Store.treeNodes, ()) withChildren (.int 0) (.text "3")
        (.int 3) := by
  have plain : ∀ name ∈ withChildren.query.names, name ∈ Request.viewParameters := by
    decide +kernel
  have uncounted : ∀ aggregates, readAggregates treeEndpoint.resource withChildren.query =
      .ok aggregates → treeEndpoint.resource.keyName ∉
        aggregates.map AggregateRequest.alias := by
    rintro aggregates isAggregates
    cases isAggregates
    exact List.not_mem_nil
  have got : (Store.get Store.nodeRegistry nodesWithChildren).Yields (Store.treeNodes, ()) [
      Store.treeEntity 1 .null .null [("children", .many [
        Store.treeEntity 2 (.int 1) (.int 3) [], Store.treeEntity 3 (.int 1) (.int 4) []])],
      Store.treeEntity 2 (.int 1) (.int 3) [("children", .many [])],
      Store.treeEntity 3 (.int 1) (.int 4) [("children", .many [])]] := by
    rw [Action.Yields]
    cbv
  exact ⟨Authorizer.allowAll_grantsAll, by decide +kernel,
    view_listed Authorizer.allowAll_grantsAll plain rfl (by with_unfolding_all rfl) rfl uncounted
      (fun requested _ => (Store.treeNodes_separates _).narrows)
      (lists_withChildren.mpr ⟨rfl, got⟩).answer⟩

/-! ## Where a view shows something else -/

/-- A key can be converted, and yet the view of it does not agree with the listing. -/
def ViewsAmiss (endpoint : Endpoint (Memory × Unit)) (memory : Memory) (request : Request)
    (key : Value) : Prop :=
  endpoint.registry.validate.isOk = true ∧ endpoint.binding.authorizer.GrantsAll ∧
    ∃ found, endpoint.resource.coerceKey key = .ok found ∧
      ¬ endpoint.ViewsListed (memory, ()) request (.int 0) key found

/-- Two nodes with children; the child of the second one has NaN for its key. -/
def unkeyedNodes : Memory where
  contents := { tables := [("nodes", [
    (.int 1, Store.treeRow 1 .null .null), (.int 2, Store.treeRow 2 .null .null),
    (.int 6, Store.treeRow 6 (.int 1) .null),
    (.float (.nan 0), (Store.treeRow 0 (.int 2) .null).set "id" (.float (.nan 0))),
    (.int 5, Store.treeRow 5 (.int 1) .null)])] }

set_option maxRecDepth 10000 in
/-- With NaN among the keys of all children, those of a node are listed as they are stored, but they
are viewed by key. -/
theorem unkeyedNodes_viewsAmiss : ViewsAmiss treeEndpoint unkeyedNodes withChildren (.int 1) := by
  have got : (Store.get Store.nodeRegistry nodesWithChildren).Yields (unkeyedNodes, ()) [
      Store.treeEntity 1 .null .null [("children", .many [
        Store.treeEntity 6 (.int 1) .null [], Store.treeEntity 5 (.int 1) .null []])],
      Store.treeEntity 2 .null .null [("children", .many [
        .mk "nodes" (.float (.nan 0)) ((Store.treeRow 0 (.int 2) .null).set "id" (.float (.nan 0)))
          [] false])],
      Store.treeEntity 6 (.int 1) .null [("children", .many [])],
      .mk "nodes" (.float (.nan 0)) ((Store.treeRow 0 (.int 2) .null).set "id" (.float (.nan 0)))
        [("children", .many [])] false,
      Store.treeEntity 5 (.int 1) .null [("children", .many [])]] := by
    rw [Action.Yields]
    cbv
  have first : (Store.first Store.nodeRegistry
      (nodesWithChildren.whereNode (.leaf (Store.leafIn "id" [.int 1])))).Yields (unkeyedNodes, ())
        (some (Store.treeEntity 1 .null .null [("children", .many [
          Store.treeEntity 5 (.int 1) .null [], Store.treeEntity 6 (.int 1) .null []])])) := by
    rw [Action.Yields]
    cbv
  have viewed := perform_view Authorizer.allowAll_grantsAll
    (show treeEndpoint.resource.coerceKey (.int 1) = .ok (.int 1) from rfl)
    (show readColumns treeEndpoint.resource withChildren.query = .ok none from rfl)
    (show readAggregates treeEndpoint.resource withChildren.query = .ok [] from rfl)
    (show TrashedScope.ofRequest treeEndpoint.resource withChildren.query = .ok .without from rfl)
    (show treeEndpoint.readRelations withChildren = .ok [{ path := "children" }] by
      with_unfolding_all rfl) (by with_unfolding_all rfl) first
  refine ⟨by decide +kernel, Authorizer.allowAll_grantsAll, .int 1, rfl, ?_⟩
  rintro ⟨requested, listed, lists, _, outcome⟩
  obtain ⟨rfl, gotAgain⟩ := lists_withChildren.mp lists
  cases got.symm.trans gotAgain
  obtain ⟨_, missing⟩ | ⟨entity, isListed, coincide, shown⟩ := outcome
  · cases viewed.symm.trans missing
  · have same := viewed.symm.trans shown
    simp only [List.mem_cons, List.not_mem_nil, or_false] at isListed
    obtain rfl | rfl | rfl | rfl | rfl := isListed
    · cases same
    · cases coincide
    · cases coincide
    · cases coincide
    · cases coincide

def unorderedNodes : Memory where
  contents := { tables := [("nodes", [(.int 1, Store.treeRow 1 .null .null),
    (.text "x", (Store.treeRow 0 .null .null).set "id" (.text "x"))])] }

set_option maxRecDepth 10000 in
/-- Nodes that cannot be listed by key can be viewed one by one. -/
theorem unorderedNodes_viewsAmiss :
    ViewsAmiss treeEndpoint unorderedNodes withChildren (.int 1) := by
  have failed : (Store.get Store.nodeRegistry nodesWithChildren).perform (unorderedNodes, ()) =
      (.error (.plain .type), (unorderedNodes, ())) := by
    cbv
  refine ⟨by decide +kernel, Authorizer.allowAll_grantsAll, .int 1, rfl, ?_⟩
  rintro ⟨requested, listed, lists, _⟩
  cases failed.symm.trans (lists_withChildren.mp lists).2

def shelvesEndpoint : Endpoint (Memory × Unit) where
  registry := ⟨Samples.Library.resources⟩
  now := Samples.Library.trashedAt
  binding := { resource := Samples.Library.shelves }

/-- Null passes for a code, but no filter can ask for it. -/
theorem nullCode_viewsAmiss : ViewsAmiss shelvesEndpoint {} {} .null := by
  have refused : (match ((shelvesEndpoint.view {} .null).perform ({}, ())).1 with
      | .error (.validation _) => true
      | _ => false) = true := by
    decide +kernel
  refine ⟨by decide +kernel, Authorizer.allowAll_grantsAll, .null, rfl, ?_⟩
  rintro ⟨requested, listed, _, _, ⟨_, missing⟩ | ⟨entity, _, _, shown⟩⟩
  · rw [missing] at refused
    cases refused
  · rw [shown] at refused
    cases refused

def countedPartsEndpoint : Endpoint (Memory × Unit) where
  registry := ⟨[{ Store.parts with keyName := "parts_count" }]⟩
  now := Samples.Library.trashedAt
  binding := { resource := { Store.parts with keyName := "parts_count" } }

def withPartsCount : Request where
  query := [("with_count", .text "parts")]

set_option maxRecDepth 10000 in
/-- A part is viewed by its key, but listed with a count in the place of it. -/
theorem countedKey_viewsAmiss :
    ViewsAmiss countedPartsEndpoint Store.partLoop withPartsCount (.int 5) := by
  have found : ((countedPartsEndpoint.view withPartsCount (.int 5)).perform
      (Store.partLoop, ())).1.isOk = true := by
    decide +kernel
  have read : countedPartsEndpoint.readParameters (withPartsCount.withLimit (.int 0)).query =
      .ok { pagination := ⟨1, 0, true⟩, aggregates := [⟨"parts"⟩] } := by
    with_unfolding_all rfl
  have relations : countedPartsEndpoint.readRelations (withPartsCount.withLimit (.int 0)) =
      .ok [] := by
    with_unfolding_all rfl
  have built : QuerySpec.ofParameters countedPartsEndpoint.resource
      { pagination := ⟨1, 0, true⟩, aggregates := [⟨"parts"⟩] } [] countedPartsEndpoint.scopes =
        .ok { resource := countedPartsEndpoint.resource, aggregates := [⟨"parts"⟩] } := by
    with_unfolding_all rfl
  have got : (Store.get countedPartsEndpoint.registry
      { resource := countedPartsEndpoint.resource, aggregates := [⟨"parts"⟩] }).Yields
        (Store.partLoop, ()) [.mk "parts" (.int 1) (Store.partRow 5 1) [] false] := by
    rw [Action.Yields]
    cbv
  refine ⟨by decide +kernel, Authorizer.allowAll_grantsAll, .int 5, rfl, ?_⟩
  rintro ⟨requested, listed, lists, _, outcome⟩
  obtain ⟨rfl, gotAgain⟩ :=
    (lists_iff Authorizer.allowAll_grantsAll read rfl relations built).mp lists
  cases got.symm.trans gotAgain
  obtain ⟨_, missing⟩ | ⟨entity, isListed, coincide, _⟩ := outcome
  · rw [missing] at found
    cases found
  · cases List.mem_singleton.mp isListed
    cases coincide

/-- A view may differ from the listing, or be refused, where NaN is among the keys of related rows,
where the keys cannot be sorted, where the key is no scalar, and where a count hides it. -/
theorem viewsAmiss :
    ViewsAmiss treeEndpoint unkeyedNodes withChildren (.int 1) ∧
      ViewsAmiss treeEndpoint unorderedNodes withChildren (.int 1) ∧
        ViewsAmiss shelvesEndpoint {} {} .null ∧
          ViewsAmiss countedPartsEndpoint Store.partLoop withPartsCount (.int 5) :=
  ⟨unkeyedNodes_viewsAmiss, unorderedNodes_viewsAmiss, nullCode_viewsAmiss, countedKey_viewsAmiss⟩

end Endpoint

end ResourceServer
