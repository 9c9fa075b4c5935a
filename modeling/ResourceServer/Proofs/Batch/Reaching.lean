import ResourceServer.Proofs.Batch.Granted
import ResourceServer.Proofs.Filter.Runs
import ResourceServer.Proofs.Memory.Revision

/-!
# Rows that a batch reaches

The keys of a batch reach rows: those under equal keys that lie in the scope of trashed rows and
satisfy every scope of the endpoint.  Where every row is filed under its key, the targets of a
batch are these rows, in the order of the keys, and what is read back after a write is the row
under the key.
-/

namespace ResourceServer

/-! ## Rows -/

namespace Endpoint

/-- Whether a row lies in a scope of trashed rows and satisfies every scope of the endpoint. -/
def reaches {σ : Type} (endpoint : Endpoint σ) (trashed : TrashedScope) (row : Record) : Bool :=
  Contents.inScope { resource := endpoint.resource, trashed } row &&
    endpoint.scopes.all fun scope => scope.holds row

/-- The rows that keys reach, in the order of the keys. A key that reaches no row is skipped. -/
def reached {σ : Type} (endpoint : Endpoint σ) (trashed : TrashedScope) (contents : Contents)
    (keys : List Value) : List (Value × Record) :=
  keys.filterMap fun key =>
    List.find? (fun entry => entry.1.coincides key && endpoint.reaches trashed entry.2)
      (contents.table endpoint.resource.name)

/-- Whether some key reaches a row. -/
def hits {σ : Type} (endpoint : Endpoint σ) (trashed : TrashedScope) (keys : List Value)
    (entry : Value × Record) : Bool :=
  entry.1.isIn keys && endpoint.reaches trashed entry.2

theorem reaches_eq_true {σ : Type} {endpoint : Endpoint σ} {trashed : TrashedScope}
    {row : Record} :
    endpoint.reaches trashed row = true ↔
      Contents.inScope { resource := endpoint.resource, trashed } row = true ∧
        InScope endpoint.scopes row := by
  simp [reaches, InScope, Filter.Node.holds_eq_true]

section Reached

variable {σ : Type} {endpoint : Endpoint σ} {trashed : TrashedScope} {contents : Contents}
variable {keys : List Value} {entry : Value × Record}

theorem mem_reached (member : entry ∈ endpoint.reached trashed contents keys) :
    entry ∈ contents.table endpoint.resource.name ∧
      endpoint.reaches trashed entry.2 = true ∧ ∃ key ∈ keys, entry.1.coincides key = true := by
  obtain ⟨key, isKey, found⟩ := List.mem_filterMap.mp member
  have holds := List.find?_some (p := fun entry : Value × Record =>
    entry.1.coincides key && endpoint.reaches trashed entry.2) found
  rw [Bool.and_eq_true] at holds
  exact ⟨List.mem_of_find?_eq_some found, holds.2, key, isKey, holds.1⟩

theorem hits_of_mem_reached (member : entry ∈ endpoint.reached trashed contents keys) :
    endpoint.hits trashed keys entry = true := by
  obtain ⟨_, reaches, key, isKey, meant⟩ := mem_reached member
  rw [hits, reaches, Bool.and_true]
  exact List.any_eq_true.mpr ⟨key, isKey, meant⟩

variable {keyName : String}

/-- In a table in which rows are filed under their keys, a key reaches one row at most. -/
theorem find?_reached (wellFiled : (contents.table endpoint.resource.name).WellFiled keyName)
    {key : Value} (isKey : key.isKey = true)
    (isEntry : entry ∈ contents.table endpoint.resource.name)
    (meant : entry.1.coincides key = true) (reaches : endpoint.reaches trashed entry.2 = true) :
    List.find? (fun entry => entry.1.coincides key && endpoint.reaches trashed entry.2)
      (contents.table endpoint.resource.name) = some entry := by
  have present : (List.find?
      (fun entry => entry.1.coincides key && endpoint.reaches trashed entry.2)
      (contents.table endpoint.resource.name)).isSome = true :=
    List.find?_isSome.mpr ⟨entry, isEntry, by rw [meant, reaches]; rfl⟩
  obtain ⟨other, found⟩ := Option.isSome_iff_exists.mp present
  have holds := List.find?_some (p := fun entry : Value × Record =>
    entry.1.coincides key && endpoint.reaches trashed entry.2) found
  rw [Bool.and_eq_true] at holds
  rw [found, wellFiled.eq_of_coincides isKey (List.mem_of_find?_eq_some found) isEntry holds.1
    meant]

theorem mem_reached_of_hits
    (wellFiled : (contents.table endpoint.resource.name).WellFiled keyName)
    (areKeys : ∀ key ∈ keys, key.isKey = true)
    (isEntry : entry ∈ contents.table endpoint.resource.name)
    (hit : endpoint.hits trashed keys entry = true) :
    entry ∈ endpoint.reached trashed contents keys := by
  rw [hits, Bool.and_eq_true] at hit
  obtain ⟨key, isKey, meant⟩ := List.any_eq_true.mp hit.1
  exact List.mem_filterMap.mpr
    ⟨key, isKey, find?_reached wellFiled (areKeys key isKey) isEntry meant hit.2⟩

/-- The rows that some key reaches are those that are hit. -/
theorem any_reached (wellFiled : (contents.table endpoint.resource.name).WellFiled keyName)
    (areKeys : ∀ key ∈ keys, key.isKey = true)
    (isEntry : entry ∈ contents.table endpoint.resource.name) :
    (endpoint.reached trashed contents keys).any (fun target => entry.1.coincides target.1) =
      endpoint.hits trashed keys entry := by
  rw [Bool.eq_iff_iff, List.any_eq_true]
  constructor
  · rintro ⟨target, isTarget, meant⟩
    have inTable := (mem_reached isTarget).1
    rw [wellFiled.entry_eq isEntry inTable meant]
    exact hits_of_mem_reached isTarget
  · intro hit
    have member := mem_reached_of_hits wellFiled areKeys isEntry hit
    obtain ⟨_, _, key, isKey, meant⟩ := mem_reached member
    refine ⟨entry, member, ?_⟩
    have entryKey := Value.isKey_of_coincides (areKeys key isKey) meant
    exact Value.coincides_of_common entryKey entryKey (areKeys key isKey) meant meant

/-- Different keys reach different rows. -/
theorem apart_reached (areKeys : ∀ key ∈ keys, key.isKey = true)
    (different : keys.Pairwise fun left right => left.coincides right = false) :
    Table.Apart (endpoint.reached trashed contents keys) := by
  refine List.Pairwise.filterMap _ ?_ (different.imp_of_mem (S := fun left right =>
    left.isKey = true ∧ right.isKey = true ∧ left.coincides right = false)
    fun isLeft isRight apart => ⟨areKeys _ isLeft, areKeys _ isRight, apart⟩)
  rintro left right ⟨leftKey, rightKey, apart⟩ first isFirst second isSecond
  have firstHolds := List.find?_some (p := fun entry : Value × Record =>
    entry.1.coincides left && endpoint.reaches trashed entry.2) isFirst
  have secondHolds := List.find?_some (p := fun entry : Value × Record =>
    entry.1.coincides right && endpoint.reaches trashed entry.2) isSecond
  rw [Bool.and_eq_true] at firstHolds secondHolds
  have firstKey := Value.isKey_of_coincides leftKey firstHolds.1
  have secondKey := Value.isKey_of_coincides rightKey secondHolds.1
  -- Rows under equal keys would make the two keys equal.
  have notSame : first.1.coincides second.1 = false := by
    rw [← Bool.not_eq_true]
    intro same
    have leftSecond : left.coincides second.1 = true :=
      Value.coincides_trans_of_isKey firstKey secondKey
        (Value.coincides_symm_of_isKey firstKey firstHolds.1) same
    rw [Value.coincides_trans_of_isKey secondKey rightKey leftSecond secondHolds.1] at apart
    cases apart
  refine ⟨notSame, ?_⟩
  rw [← Bool.not_eq_true] at notSame ⊢
  exact fun same => notSame (Value.coincides_symm_of_isKey secondKey same)

/-- Every row that is hit is reached once. -/
theorem reached_perm (wellFiled : (contents.table endpoint.resource.name).WellFiled keyName)
    (areKeys : ∀ key ∈ keys, key.isKey = true)
    (different : keys.Pairwise fun left right => left.coincides right = false) :
    (endpoint.reached trashed contents keys).Perm
      ((contents.table endpoint.resource.name).filter (endpoint.hits trashed keys)) := by
  have self : ∀ entry : Value × Record, entry.1.isIn keys = true →
      entry.1.coincides entry.1 = true := by
    intro entry isIn
    obtain ⟨key, isKey, meant⟩ := List.any_eq_true.mp isIn
    have entryKey := Value.isKey_of_coincides (areKeys key isKey) meant
    exact Value.coincides_of_common entryKey entryKey (areKeys key isKey) meant meant
  have reachedOnce : (endpoint.reached trashed contents keys).Nodup := by
    refine (apart_reached areKeys different).imp_of_mem ?_
    rintro entry other isReached _ ⟨apart, _⟩ rfl
    have hit := hits_of_mem_reached isReached
    rw [hits, Bool.and_eq_true] at hit
    rw [self entry hit.1] at apart
    cases apart
  have hitOnce : ((contents.table endpoint.resource.name).filter
      (endpoint.hits trashed keys)).Nodup := by
    refine (wellFiled.distinct.filter _).imp_of_mem ?_
    rintro entry other isHit _ ⟨apart, _⟩ rfl
    have hit := (List.mem_filter.mp isHit).2
    rw [hits, Bool.and_eq_true] at hit
    rw [self entry hit.1] at apart
    cases apart
  refine (List.perm_ext_iff_of_nodup reachedOnce hitOnce).mpr fun entry => ?_
  rw [List.mem_filter]
  constructor
  · exact fun member => ⟨(mem_reached member).1, hits_of_mem_reached member⟩
  · exact fun both => mem_reached_of_hits wellFiled areKeys both.1 both.2

end Reached

end Endpoint

/-! ## Targets -/

namespace QuerySpec

variable {resource : Resource} {trashed : TrashedScope} {requests : List RelationRequest}
variable {scopes : List Filter.Node} {keys : List Value}

/-- The query for the rows that a batch is about. -/
def targets (resource : Resource) (trashed : TrashedScope) (requests : List RelationRequest)
    (scopes : List Filter.Node) (keys : List Value) : QuerySpec where
  resource := resource
  wheres := scopes ++ [.leaf (Store.leafIn resource.keyName keys)]
  includes := mergeRequests requests
  trashed := trashed

theorem ofKeys_targets {spec : QuerySpec} :
    ofKeys resource { trashed } requests scopes keys = .ok spec ↔
      (∀ key ∈ keys, Filter.isScalar key = true) ∧
        spec = targets resource trashed requests scopes keys := by
  have wide : ofParameters resource { trashed } requests scopes =
      .ok { resource, trashed, wheres := scopes, includes := mergeRequests requests } := by
    unfold ofParameters
    dsimp only
    rw [QueryParameters.effectiveAggregates_eq_nil rfl rfl]
    simp only [wheres_foldl_whereNode]
    simp [withRelations, orderBy, withAggregates]
  constructor
  · intro done
    obtain ⟨other, built, narrowed⟩ := bind_eq_ok.mp done
    cases wide.symm.trans built
    obtain ⟨leaf, made, narrowed⟩ := bind_eq_ok.mp narrowed
    obtain ⟨⟨items, isItems, scalars⟩, rfl⟩ := Filter.Leaf.make_eq_ok.mp made
    cases isItems
    cases narrowed
    exact ⟨scalars, rfl⟩
  · rintro ⟨scalars, rfl⟩
    rw [ofKeys_eq wide scalars]
    rfl

end QuerySpec

/-- The entity is a copy of a row: it has the key of the row and its columns. -/
structure Entity.CopyOf (resource : Resource) (entry : Value × Record) (entity : Entity) :
    Prop where
  key : entity.key = entry.1
  bare : entity.bare =
    Store.entityOf resource (entry.2.project (distinctNames resource.columns))

theorem Entity.CopyOf.attributes {resource : Resource} {entry : Value × Record} {entity : Entity}
    (copies : entity.CopyOf resource entry) :
    entity.attributes = entry.2.project (distinctNames resource.columns) := by
  have same := congrArg Entity.attributes copies.bare
  cases entity
  exact same

namespace Endpoint

variable {τ : Type} {endpoint : Endpoint (Memory × τ)} {context : BatchContext}
variable {keys : List Value} {memory : Memory} {side : τ} {requests : List RelationRequest}

section Selecting

variable {contents : Contents} {trashed : TrashedScope}

theorem rowMatches_targets (scalars : ∀ key ∈ keys, Filter.isScalar key = true) {row : Record} :
    Contents.rowMatches (.targets endpoint.resource trashed requests endpoint.scopes keys) row =
        .ok true ↔
      endpoint.reaches trashed row = true ∧
        (row.get endpoint.resource.keyName).isIn keys = true := by
  have given := Store.null_not_mem_of_scalars scalars
  rw [reaches_eq_true]
  constructor
  · intro matching
    have holds := Filter.evaluateAll_eq_true.mp (Contents.evaluateAll_of_rowMatches matching)
    have isIn := holds _ (List.mem_append_right _ (List.mem_singleton_self _))
    rw [Filter.Node.evaluate, Store.evaluate_leafIn given] at isIn
    have live := Contents.inScope_of_rowMatches matching
    refine ⟨⟨live, fun scope isScope => ?_⟩, Except.ok.inj isIn⟩
    exact holds scope (List.mem_append_left _ isScope)
  · rintro ⟨⟨live, inScope⟩, isIn⟩
    have holds : Filter.evaluateAll row
        (endpoint.scopes ++ [.leaf (Store.leafIn endpoint.resource.keyName keys)]) = .ok true := by
      rw [Filter.evaluateAll_eq_true, List.forall_mem_append, List.forall_mem_singleton,
        Filter.Node.evaluate, Store.evaluate_leafIn given, isIn]
      exact ⟨inScope, rfl⟩
    unfold Contents.rowMatches
    rw [if_pos (show Contents.inScope (.targets endpoint.resource trashed requests endpoint.scopes
      keys) row = true from live)]
    change (Filter.evaluateAll row (_ ++ _) >>= _) = _
    rw [holds]
    rfl

theorem withCounts_targets (row : Record) :
    Contents.withCounts endpoint.registry contents
      (.targets endpoint.resource trashed requests endpoint.scopes keys) row = .ok row := rfl

/-- What the query for some keys loads are copies of rows that the keys reach. -/
theorem copyOf_of_loads {rows : List Record} {entities : List Entity}
    (keyed : (contents.table endpoint.resource.name).Keyed endpoint.resource.keyName)
    (scalars : ∀ key ∈ keys, Filter.isScalar key = true)
    (fetched : contents.fetchRows endpoint.registry
      (.targets endpoint.resource trashed requests endpoint.scopes keys) none none = .ok rows)
    (loads : Store.Loads endpoint.resource rows entities) :
    ∀ entity ∈ entities, ∃ entry ∈ contents.table endpoint.resource.name,
      endpoint.reaches trashed entry.2 = true ∧ entity.CopyOf endpoint.resource entry := by
  intro entity isEntity
  obtain ⟨row, inTable, matching, counted, counts, isBare, isKey⟩ :=
    loads.source fetched entity isEntity
  cases (withCounts_targets row).symm.trans counts
  obtain ⟨entry, isEntry, rfl⟩ := List.mem_map.mp inTable
  refine ⟨entry, isEntry, ((rowMatches_targets scalars).mp matching).1, ?_, ?_⟩
  · rw [isKey]
    exact keyed.filed entry isEntry
  · rw [isBare, Contents.resultNames, QuerySpec.selectedColumns, QuerySpec.aggregateAliases]
    simp [QuerySpec.targets]

/-- In what the query for some keys loads, each key finds the copy of the row that it reaches, or
neither a copy nor a row. -/
theorem find_copies {rows : List Record} {entities : List Entity}
    (keyed : (contents.table endpoint.resource.name).Keyed endpoint.resource.keyName)
    (scalars : ∀ key ∈ keys, Filter.isScalar key = true)
    (fetched : contents.fetchRows endpoint.registry
      (.targets endpoint.resource trashed requests endpoint.scopes keys) none none = .ok rows)
    (loads : Store.Loads endpoint.resource rows entities) {key : Value} (isGiven : key ∈ keys) :
    Option.Rel (fun entry entity => Entity.CopyOf endpoint.resource entry entity)
      (List.find? (fun entry => entry.1.coincides key && endpoint.reaches trashed entry.2)
        (contents.table endpoint.resource.name))
      (entities.filter fun entity => entity.key.coincides key).getLast? := by
  have isKey := Value.isKey_of_isScalar (scalars key isGiven)
  cases last : (entities.filter fun entity => entity.key.coincides key).getLast? with
  | some entity =>
      obtain ⟨isEntity, meant⟩ := List.mem_filter.mp (List.mem_of_getLast? last)
      obtain ⟨entry, isEntry, reaches, copy⟩ :=
        copyOf_of_loads keyed scalars fetched loads entity isEntity
      rw [copy.key] at meant
      rw [find?_reached keyed.toWellFiled isKey isEntry meant reaches]
      exact .some copy
  | none =>
      rw [List.getLast?_eq_none_iff] at last
      rw [List.find?_eq_none.mpr]
      · exact .none
      intro entry isEntry holds
      rw [Bool.and_eq_true] at holds
      have filed := keyed.filed entry isEntry
      have isIn : (Record.get entry.2 endpoint.resource.keyName).isIn keys = true := by
        rw [filed]
        exact List.any_eq_true.mpr ⟨key, isGiven, holds.1⟩
      -- The row would have been loaded under its key.
      obtain ⟨entity, isEntity, sameKey⟩ : ∃ entity ∈ entities,
          entity.key = Record.get entry.2 endpoint.resource.keyName :=
        Store.Loads.exists_key List.not_mem_nil fetched loads
          (List.mem_map_of_mem isEntry) ((rowMatches_targets scalars).mpr ⟨holds.2, isIn⟩)
      rw [filed] at sameKey
      have missing := List.filter_eq_nil_iff.mp last entity isEntity
      rw [sameKey] at missing
      exact missing holds.1

end Selecting

/-- The targets of a batch are found in what one query for its keys loads. -/
theorem fetchTargets_eq_ok (isResource : context.resource = endpoint.resource)
    (isScopes : context.scopes = endpoint.scopes) {found : List Entity} {after : Memory × τ}
    (done : (endpoint.fetchTargets context keys).perform (memory, side) = (.ok found, after)) :
    after = (memory, side) ∧ (keys = [] ∧ found = [] ∨
      (∀ key ∈ keys, Filter.isScalar key = true) ∧ ∃ rows entities,
        memory.contents.fetchRows endpoint.registry (.targets endpoint.resource
          context.targetScope context.requested endpoint.scopes keys) none none = .ok rows ∧
        Store.Loads endpoint.resource rows entities ∧
        found = keys.filterMap fun key =>
          (entities.filter fun entity => entity.key.coincides key).getLast?) := by
  unfold fetchTargets at done
  split at done
  · rename_i noKeys
    cases done
    exact ⟨rfl, .inl ⟨List.isEmpty_iff.mp noKeys, rfl⟩⟩
  · obtain ⟨spec, parsed, done⟩ := Action.perform_compute_eq_ok.mp done
    rw [isResource, isScopes] at parsed
    obtain ⟨scalars, rfl⟩ := QuerySpec.ofKeys_targets.mp parsed
    obtain ⟨entities, middle, loaded, done⟩ := Action.perform_bind_eq_ok.mp done
    obtain ⟨rfl, rows, fetched, loads⟩ := Store.get_eq_ok loaded
    cases done
    exact ⟨rfl, .inr ⟨scalars, rows, entities, fetched, loads, rfl⟩⟩

/-- The targets of a batch are copies of the rows that its keys reach, in the order of the keys. -/
theorem fetchTargets_copies
    (keyed : (memory.contents.table endpoint.resource.name).Keyed endpoint.resource.keyName)
    (isResource : context.resource = endpoint.resource)
    (isScopes : context.scopes = endpoint.scopes) {found : List Entity} {after : Memory × τ}
    (done : (endpoint.fetchTargets context keys).perform (memory, side) = (.ok found, after)) :
    after = (memory, side) ∧ (∀ key ∈ keys, Filter.isScalar key = true) ∧
      List.Forall₂ (fun entry entity => entity.CopyOf endpoint.resource entry)
        (endpoint.reached context.targetScope memory.contents keys) found := by
  obtain ⟨same, ⟨rfl, rfl⟩ | ⟨scalars, rows, entities, fetched, loads, rfl⟩⟩ :=
    fetchTargets_eq_ok isResource isScopes done
  · exact ⟨same, nofun, .nil⟩
  · have itself : List.Forall₂ (fun key other => key = other ∧ key ∈ keys) keys keys :=
      List.forall₂_same.mpr fun key isGiven => ⟨rfl, isGiven⟩
    refine ⟨same, scalars, List.rel_filterMap ?_ itself⟩
    rintro key _ ⟨rfl, isGiven⟩
    exact find_copies keyed scalars fetched loads isGiven

end Endpoint

/-! ## Reading back -/

/-- The query by which a batch reads back what it has written. -/
def BatchContext.freshQuery (context : BatchContext) : Except Error QuerySpec :=
  QuerySpec.ofParameters context.resource
    { trashed := context.freshScope, columns := context.parameters.columns,
      aggregates := context.parameters.aggregates } context.requested []

theorem BatchContext.freshQuery_eq_ok {context : BatchContext} {spec : QuerySpec}
    (built : context.freshQuery = .ok spec) :
    ∃ columns, spec =
      { resource := context.resource
        includes := mergeRequests context.requested
        aggregates := context.parameters.aggregates
        trashed := context.freshScope
        columns } := by
  obtain ⟨columns, rfl⟩ := QuerySpec.ofParameters_eq_ok built
  refine ⟨columns, ?_⟩
  rw [QueryParameters.effectiveAggregates_of_unsorted rfl]
  rfl

/-- The entity presents a row as a query asks for it: under the key of the row, with the values of
the row in the columns that are wanted.  Counts are written over both. -/
structure Entity.Presents (spec : QuerySpec) (entry : Value × Record) (entity : Entity) :
    Prop where
  names : entity.attributes.names = Contents.resultNames spec
  values : ∀ name ∈ Contents.resultNames spec, name ∉ spec.aggregateAliases →
    entity.get name = entry.2.get name
  key : spec.resource.keyName ∉ spec.aggregateAliases → entity.key = entry.1

theorem Entity.wasRecentlyCreated_bare (entity : Entity) :
    entity.bare.wasRecentlyCreated = entity.wasRecentlyCreated := by
  cases entity
  rfl

theorem Entity.attributes_bare (entity : Entity) : entity.bare.attributes = entity.attributes := by
  cases entity
  rfl

theorem Record.names_project (record : Record) (names : List String) :
    (record.project names).names = names := by
  rw [project, Record.names, List.map_map]
  exact List.map_id _

namespace Endpoint

variable {τ : Type} {endpoint : Endpoint (Memory × τ)} {context : BatchContext} {key : Value}
variable {memory : Memory} {side : τ} {spec : QuerySpec} {entry : Value × Record}

theorem rowMatches_fresh (built : context.freshQuery = .ok spec)
    (scalar : Filter.isScalar key = true) (row : Record) :
    Contents.rowMatches (spec.whereNode (.leaf (Store.leafIn context.resource.keyName [key]))) row =
      .ok (Contents.inScope { resource := context.resource, trashed := context.freshScope } row &&
        (row.get context.resource.keyName).coincides key) := by
  obtain ⟨columns, rfl⟩ := context.freshQuery_eq_ok built
  have given := Store.null_not_mem_of_scalars (List.forall_mem_singleton.mpr scalar)
  have evaluates : Filter.evaluateAll row
      [.leaf (Store.leafIn context.resource.keyName [key])] =
        .ok ((row.get context.resource.keyName).coincides key) := by
    rw [Filter.evaluateAll, Filter.Node.evaluate, Store.evaluate_leafIn given]
    simp only [Value.isIn, List.any_cons, List.any_nil, Bool.or_false]
    cases (row.get context.resource.keyName).coincides key with
    | true => rfl
    | false => rfl
  unfold Contents.rowMatches
  change (if Contents.inScope { resource := context.resource, trashed := context.freshScope } row
    then Filter.evaluateAll row [_] >>= _ else _) = _
  rw [evaluates]
  split
  · rename_i live
    rw [live, Bool.true_and]
    exact congrArg Except.ok (Bool.and_true _)
  · rename_i other
    rw [Bool.not_eq_true] at other
    rw [other, Bool.false_and]

/-- What is read back is the first entity under a key, which is marked as new after storing. -/
theorem first_of_refetch {entity : Entity} {after : Memory × τ}
    (done : (endpoint.refetch context key).perform (memory, side) = (.ok entity, after)) :
    after = (memory, side) ∧ Filter.isScalar key = true ∧ ∃ spec first,
      context.freshQuery = .ok spec ∧
      (Store.first endpoint.registry
        (spec.whereNode (.leaf (Store.leafIn context.resource.keyName [key])))).Yields
          (memory, side) (some first) ∧
      entity = if context.verb == .store then first.markCreated else first := by
  obtain ⟨narrow, parsed, done⟩ := Action.perform_compute_eq_ok.mp done
  obtain ⟨spec, built, narrowed⟩ := bind_eq_ok.mp parsed
  obtain ⟨leaf, made, narrowed⟩ := bind_eq_ok.mp narrowed
  cases narrowed
  obtain ⟨⟨items, isItems, scalars⟩, rfl⟩ := Filter.Leaf.make_eq_ok.mp made
  cases isItems
  obtain ⟨found, middle, loaded, done⟩ := Action.perform_bind_eq_ok.mp done
  obtain ⟨rfl, _⟩ := Store.first_eq_ok loaded
  cases found with
  | none => cases done
  | some first =>
      cases done
      exact ⟨rfl, scalars key (List.mem_singleton_self key), spec, first, built, loaded, rfl⟩

/-- What is read back under a key presents a row that has it. -/
theorem refetch_source {entity : Entity} {after : Memory × τ}
    (done : (endpoint.refetch context key).perform (memory, side) = (.ok entity, after)) :
    after = (memory, side) ∧ Filter.isScalar key = true ∧
      ∃ row ∈ (memory.contents.table context.resource.name).rows,
        Contents.inScope { resource := context.resource, trashed := context.freshScope } row =
            true ∧
          (row.get context.resource.keyName).coincides key = true ∧
          ∃ spec, context.freshQuery = .ok spec ∧
            entity.Presents spec (row.get context.resource.keyName, row) ∧
            entity.wasRecentlyCreated = (context.verb == .store) ∧
            ∃ counted, Contents.withCounts endpoint.registry memory.contents spec row =
              .ok counted := by
  obtain ⟨unchanged, scalar, spec, first, built, loaded, rfl⟩ := first_of_refetch done
  obtain ⟨_, rows, entities, fetched, loads, isFound⟩ := Store.first_eq_ok loaded
  obtain ⟨row, inTable, matching, counted, counts, isBare, isKey⟩ :=
    loads.source fetched first (List.mem_of_mem_head? isFound.symm)
  have isResource : spec.resource = context.resource := by
    obtain ⟨columns, rfl⟩ := context.freshQuery_eq_ok built
    rfl
  change row ∈ (memory.contents.table spec.resource.name).rows at inTable
  rw [isResource] at inTable
  have holds := Except.ok.inj ((rowMatches_fresh built scalar row).symm.trans matching)
  rw [Bool.and_eq_true] at holds
  have presents : first.Presents spec (row.get context.resource.keyName, row) := by
    refine ⟨?_, fun name isName uncounted => ?_, fun uncounted => ?_⟩
    · rw [← Entity.attributes_bare, isBare]
      exact Record.names_project counted _
    · rw [Entity.get, ← Entity.attributes_bare, isBare]
      refine (Record.get_project isName).trans ?_
      cases Contents.get_withCounts counts with
      | inl isCount => exact absurd isCount.1 uncounted
      | inr kept => exact kept.2
    · refine isKey.trans ((Contents.key_withCounts uncounted counts).trans ?_)
      exact congrArg (Record.get row) (congrArg Resource.keyName isResource)
  refine ⟨unchanged, scalar, row, inTable, holds.1, holds.2, spec, built, ?_, ?_, counted, counts⟩
  · split
    · cases first
      exact ⟨presents.names, presents.values, presents.key⟩
    · exact presents
  · split
    · rename_i isStore
      rw [isStore]
      cases first
      rfl
    · rename_i notStore
      rw [Bool.not_eq_true] at notStore
      rw [notStore, ← Entity.wasRecentlyCreated_bare, isBare]
      rfl

/-- What is read back under the key of a row presents that row. -/
theorem refetch_presents
    (keyed : (memory.contents.table context.resource.name).Keyed context.resource.keyName)
    (isEntry : entry ∈ memory.contents.table context.resource.name)
    (meant : entry.1.coincides key = true) {entity : Entity} {after : Memory × τ}
    (done : (endpoint.refetch context key).perform (memory, side) = (.ok entity, after)) :
    Contents.inScope { resource := context.resource, trashed := context.freshScope } entry.2 =
        true ∧
      ∃ spec, context.freshQuery = .ok spec ∧ entity.Presents spec entry ∧
        ∃ counted, Contents.withCounts endpoint.registry memory.contents spec entry.2 =
          .ok counted := by
  obtain ⟨_, scalar, row, inTable, live, same, spec, built, presents, _, counts⟩ :=
    refetch_source done
  obtain ⟨other, isOther, rfl⟩ := List.mem_map.mp inTable
  rw [keyed.filed other isOther] at same presents
  -- The row that was found is under the same key, so it is the one that is meant.
  obtain rfl := keyed.eq_of_coincides (Value.isKey_of_isScalar scalar) isOther isEntry same meant
  exact ⟨live, spec, built, presents, counts⟩

end Endpoint

end ResourceServer
