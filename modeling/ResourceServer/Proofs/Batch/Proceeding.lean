import ResourceServer.Proofs.Batch.Revising
import ResourceServer.Proofs.Indexing

/-!
# Batches that go through

A batch that asks for no relations and no counts reads nothing but rows of its resource.  It goes
through when its scopes can be evaluated, the rows that it reaches can be sorted by key, and what it
writes repeats no unique values.  Rows that keep the values of their unique columns repeat none
along the way when they did not repeat any to begin with.
-/

namespace ResourceServer

/-- The rows that match are selected with their counts, where both can be told. -/
theorem Contents.selectRows_counted {registry : Registry} {contents : Contents} {spec : QuerySpec}
    {test : Record → Bool} {counted : Record → Record} {rows : List Record}
    (matching : ∀ row ∈ rows, rowMatches spec row = .ok (test row))
    (counts : ∀ row ∈ rows, test row = true →
      withCounts registry contents spec row = .ok (counted row)) :
    selectRows registry contents spec rows = .ok ((rows.filter test).map counted) := by
  induction rows with
  | nil => rfl
  | cons row rest induction =>
      rw [List.forall_mem_cons] at matching counts
      rw [List.filter_cons]
      cases kept : test row with
      | false =>
          have unmatched := matching.1.trans (congrArg Except.ok kept)
          exact selectRows_cons_eq_ok.mpr (.inl ⟨unmatched, induction matching.2 counts.2⟩)
      | true =>
          have matched := matching.1.trans (congrArg Except.ok kept)
          exact selectRows_cons_eq_ok.mpr (.inr
            ⟨matched, _, _, counts.1 kept, induction matching.2 counts.2, rfl⟩)

/-- When one row matches, it is the result. -/
theorem Contents.fetchRows_single {registry : Registry} {contents : Contents} {spec : QuerySpec}
    {test : Record → Bool} {row counted : Record} (unsorted : spec.sorts = [])
    (matching : ∀ row ∈ (contents.table spec.resource.name).rows,
      rowMatches spec row = .ok (test row))
    (onlyOne : (contents.table spec.resource.name).rows.filter test = [row])
    (counts : withCounts registry contents spec row = .ok counted)
    (complete : row.has spec.resource.keyName = true) :
    contents.fetchRows registry spec none (some 1) =
      .ok ([counted].map (Record.project · (resultNames spec))) := by
  have selection : selectRows registry contents spec (contents.table spec.resource.name).rows =
      .ok [counted] := by
    have counted_of_match : ∀ other ∈ (contents.table spec.resource.name).rows,
        test other = true → withCounts registry contents spec other = .ok counted := by
      intro other isRow kept
      have found := List.mem_filter.mpr ⟨isRow, kept⟩
      rw [onlyOne, List.mem_singleton] at found
      rw [found]
      exact counts
    rw [selectRows_counted matching counted_of_match, onlyOne]
    rfl
  have sortable : Record.areSortable spec.resource.keyName [counted] = true := rfl
  obtain ⟨sorted, sorting⟩ := Record.exists_sortBy .ascending sortable
  obtain rfl := List.perm_singleton.mp (Record.sortBy_perm sorting)
  have kept : ∀ row ∈ [counted], Record.has row spec.resource.keyName = true :=
    List.forall_mem_singleton.mpr (has_withCounts counts complete)
  refine fetchRows_eq_ok.mpr ⟨_, _, [counted], selection, kept, sorting, ?_, ?_⟩
  · rw [unsorted]
    rfl
  · refine congrArg (List.map _) ?_
    exact (sliceBetween_of_nonneg (Int.le_refl 0) Int.one_nonneg [counted]).symm

theorem mergeRequests_nil : mergeRequests [] = [] := List.mergeSort_nil

theorem Resource.projection_nil (resource : Resource) (columns : List String) :
    resource.projection columns [] = .ok (distinctNames (resource.keyName :: columns)) := by
  unfold projection
  rfl

/-- The query for all rows in a scope of trashed rows, with the columns and counts that are asked
for. -/
theorem QuerySpec.ofParameters_bare (resource : Resource) (trashed : TrashedScope)
    (columns : Option (List String)) (aggregates : List AggregateRequest) :
    ofParameters resource { trashed, columns, aggregates } [] [] =
      .ok { resource, trashed, aggregates,
            columns := columns.map fun names =>
              distinctNames (distinctNames (resource.keyName :: names)) } := by
  rw [ofParameters_eq, QueryParameters.effectiveAggregates_of_unsorted rfl, mergeRequests_nil]
  cases columns with
  | none => rfl
  | some names =>
      simp only [Resource.projection_nil]
      rfl

/-- The counts that a registered resource declares can be taken on every row. -/
theorem Registry.Checked.counts {registry : Registry} {resource : Resource} {name : String}
    (checked : registry.Checked resource) (declared : name ∈ resource.aggregates)
    (contents : Contents) (row : Record) :
    ∃ count, contents.relatedCount registry resource name row = .ok count := by
  obtain ⟨relation, isRelation⟩ := checked.aggregates name declared
  obtain ⟨target, isTarget, _⟩ :=
    checked.foreignKeys _ (Resource.mem_of_relation isRelation)
  unfold Contents.relatedCount
  rw [isRelation]
  change ∃ count, (registry.resource relation.target >>= _) = _
  rw [isTarget]
  change ∃ count, (if (row.get (relation.joiningFields resource target).1).isNull then _ else _) = _
  split
  · exact ⟨_, rfl⟩
  · exact ⟨_, rfl⟩

theorem Contents.exists_withCounts {registry : Registry} {contents : Contents} {spec : QuerySpec}
    {row : Record} (counts : ∀ aggregate ∈ spec.aggregates, ∃ count,
      relatedCount registry contents spec.resource aggregate.relation row = .ok count) :
    ∃ counted, withCounts registry contents spec row = .ok counted := by
  have general : ∀ aggregates ⊆ spec.aggregates, ∀ result : Record, ∃ counted,
      aggregates.foldlM (fun result aggregate => do
        let count ← relatedCount registry contents spec.resource aggregate.relation row
        .ok (Record.set result aggregate.alias (.int count))) result =
          (.ok counted : Except Error Record) := by
    intro aggregates included
    induction aggregates with
    | nil => exact fun result => ⟨result, rfl⟩
    | cons aggregate rest induction =>
        intro result
        rw [List.cons_subset] at included
        obtain ⟨count, counted⟩ := counts aggregate included.1
        rw [List.foldlM_cons, counted]
        exact induction included.2 _
  exact general spec.aggregates (List.Subset.refl _) row

namespace Endpoint

variable {τ : Type} {endpoint : Endpoint (Memory × τ)} {context : BatchContext}
variable {plan : BatchPlan} {keys : List Value} {memory : Memory} {side : τ}
variable {trashed : TrashedScope}

/-! ## Targets -/

/-- Whether the scopes of an endpoint can be evaluated on a row, if the row lies in a scope of
trashed rows at all. -/
def Evaluates {σ : Type} (endpoint : Endpoint σ) (trashed : TrashedScope) (row : Record) : Prop :=
  ∃ holds, Contents.rowMatches
    { resource := endpoint.resource, trashed, wheres := endpoint.scopes } row = .ok holds

theorem evaluates_of_scopes {row : Record}
    (sound : ∀ scope ∈ endpoint.scopes, ∃ holds, scope.evaluate row = .ok holds) :
    endpoint.Evaluates trashed row := by
  have all : ∀ nodes : List Filter.Node, (∀ node ∈ nodes, ∃ holds, node.evaluate row = .ok holds) →
      ∃ holds, Filter.evaluateAll row nodes = .ok holds := by
    intro nodes sound
    induction nodes with
    | nil => exact ⟨true, rfl⟩
    | cons node rest induction =>
        rw [List.forall_mem_cons] at sound
        obtain ⟨holds, evaluated⟩ := sound.1
        rw [Filter.evaluateAll, evaluated]
        cases holds with
        | true => exact induction sound.2
        | false => exact ⟨false, rfl⟩
  obtain ⟨holds, evaluated⟩ := all endpoint.scopes sound
  unfold Evaluates Contents.rowMatches
  rw [evaluated]
  split
  · exact ⟨_, rfl⟩
  · exact ⟨_, rfl⟩

theorem Evaluates.rowMatches {row : Record} (evaluates : endpoint.Evaluates trashed row) :
    Contents.rowMatches { resource := endpoint.resource, trashed, wheres := endpoint.scopes } row =
      .ok (endpoint.reaches trashed row) := by
  obtain ⟨holds, matching⟩ := evaluates
  rw [matching]
  refine congrArg Except.ok (Bool.eq_iff_iff.mpr ?_)
  rw [reaches_eq_true]
  constructor
  · rintro rfl
    have live := Contents.inScope_of_rowMatches matching
    have inScope := Filter.evaluateAll_eq_true.mp (Contents.evaluateAll_of_rowMatches matching)
    exact ⟨live, inScope⟩
  · rintro ⟨live, inScope⟩
    have holdsAll := Filter.evaluateAll_eq_true.mpr inScope
    unfold Contents.rowMatches at matching
    change (if Contents.inScope { resource := endpoint.resource, trashed } row then _ else _) = _
      at matching
    rw [live, if_pos rfl, holdsAll] at matching
    cases matching
    rfl

theorem selectRows_targets {contents : Contents} (requests : List RelationRequest)
    (keyed : (contents.table endpoint.resource.name).Keyed endpoint.resource.keyName)
    (scalars : ∀ key ∈ keys, Filter.isScalar key = true)
    (evaluates : ∀ entry ∈ contents.table endpoint.resource.name,
      endpoint.Evaluates trashed entry.2) :
    Contents.selectRows endpoint.registry contents
        (.targets endpoint.resource trashed requests endpoint.scopes keys)
        (contents.table endpoint.resource.name).rows =
      .ok (((contents.table endpoint.resource.name).filter (endpoint.hits trashed keys)).map
        Prod.snd) := by
  have given := Store.null_not_mem_of_scalars scalars
  have matching : ∀ row ∈ (contents.table endpoint.resource.name).rows,
      Contents.rowMatches (.targets endpoint.resource trashed requests endpoint.scopes keys) row =
        .ok (endpoint.reaches trashed row && (row.get endpoint.resource.keyName).isIn keys) := by
    intro row isRow
    obtain ⟨entry, isEntry, rfl⟩ := List.mem_map.mp isRow
    exact Contents.rowMatches_leafIn given (evaluates entry isEntry).rowMatches
  have hit : (contents.table endpoint.resource.name).rows.filter
      (fun row => endpoint.reaches trashed row && (row.get endpoint.resource.keyName).isIn keys) =
        ((contents.table endpoint.resource.name).filter (endpoint.hits trashed keys)).map
          Prod.snd := by
    rw [Table.rows, List.filter_map]
    refine congrArg (List.map _) (List.filter_congr fun entry isEntry => ?_)
    rw [Function.comp_apply, keyed.filed entry isEntry, Bool.and_comm]
    rfl
  rw [← hit]
  exact Contents.selectRows_filter matching rfl

/-- The rows that are hit can be sorted by the key column when their keys can be sorted. -/
theorem areSortable_hits {table : Table} (keyed : table.Keyed endpoint.resource.keyName) :
    Record.areSortable endpoint.resource.keyName
        ((table.filter (endpoint.hits trashed keys)).map Prod.snd) = true ↔
      (table.filter (endpoint.hits trashed keys)).Pairwise
        fun left right => left.1.isSortableWith right.1 = true := by
  rw [Record.areSortable_iff, List.pairwise_map]
  refine List.Pairwise.iff_of_mem fun isLeft isRight => ?_
  rw [keyed.filed _ (List.mem_of_mem_filter isLeft), keyed.filed _ (List.mem_of_mem_filter isRight)]

/-- The rows that are reached are fetched when the scopes can be evaluated and these rows can be
sorted. -/
theorem fetchRows_targets {contents : Contents}
    (requests : List RelationRequest)
    (keyed : (contents.table endpoint.resource.name).Keyed endpoint.resource.keyName)
    (scalars : ∀ key ∈ keys, Filter.isScalar key = true)
    (evaluates : ∀ entry ∈ contents.table endpoint.resource.name,
      endpoint.Evaluates trashed entry.2)
    (sortable : ((contents.table endpoint.resource.name).filter
      (endpoint.hits trashed keys)).Pairwise
        fun left right => left.1.isSortableWith right.1 = true) :
    ∃ sorted, contents.fetchRows endpoint.registry
        (.targets endpoint.resource trashed requests endpoint.scopes keys) none none =
      .ok ((Contents.window none none sorted).map fun row => Record.project row
        (Contents.resultNames
          (.targets endpoint.resource trashed requests endpoint.scopes keys))) := by
  have selection := selectRows_targets requests keyed scalars evaluates
  have complete : ∀ row ∈ ((contents.table endpoint.resource.name).filter
      (endpoint.hits trashed keys)).map Prod.snd,
      Record.has row endpoint.resource.keyName = true := by
    intro row isRow
    obtain ⟨entry, isHit, rfl⟩ := List.mem_map.mp isRow
    exact keyed.complete entry (List.mem_of_mem_filter isHit)
  obtain ⟨sorted, sorting⟩ :=
    Record.exists_sortBy .ascending ((areSortable_hits keyed).mpr sortable)
  exact ⟨sorted, Contents.fetchRows_eq_ok.mpr
    ⟨_, sorted, sorted, selection, complete, sorting, rfl, rfl⟩⟩

/-- Without relations to load, targets are found when their rows are fetched. -/
theorem targets_yields (prepares : endpoint.Prepares context plan)
    (keyColumn : endpoint.resource.keyName ∈ endpoint.resource.columns)
    (keyed : (memory.contents.table endpoint.resource.name).Keyed endpoint.resource.keyName)
    (unrelated : context.requested = [])
    (scalars : ∀ key ∈ plan.rowKeys, Filter.isScalar key = true)
    (evaluates : ∀ entry ∈ memory.contents.table endpoint.resource.name,
      endpoint.Evaluates context.targetScope entry.2)
    (sortable : ((memory.contents.table endpoint.resource.name).filter
      (endpoint.hits context.targetScope plan.rowKeys)).Pairwise
        fun left right => left.1.isSortableWith right.1 = true) :
    ∃ targets, (endpoint.targets context plan).Yields (memory, side) targets := by
  rw [targets_eq endpoint context prepares.aboutRows]
  obtain ⟨sorted, fetched⟩ := fetchRows_targets [] keyed scalars evaluates sortable
  obtain ⟨loaded, got⟩ : ∃ loaded, (Store.get endpoint.registry (.targets endpoint.resource
      context.targetScope [] endpoint.scopes plan.rowKeys)).Yields (memory, side) loaded := by
    have included : (QuerySpec.targets endpoint.resource context.targetScope []
        endpoint.scopes plan.rowKeys).includes = [] := mergeRequests_nil
    obtain ⟨loaded, hydrated⟩ := Store.hydrate_yields_flat included keyColumn
      (Contents.window none none sorted)
    exact ⟨loaded, (Memory.yields_fetchRows.mpr fetched).bind hydrated⟩
  obtain ⟨found, finds⟩ : ∃ found, (endpoint.fetchTargets context plan.rowKeys).Yields
      (memory, side) found := by
    unfold fetchTargets
    split
    · exact ⟨[], rfl⟩
    · rw [prepares.isResource, prepares.isScopes,
        QuerySpec.ofKeys_targets.mpr ⟨scalars, rfl⟩, unrelated]
      exact ⟨_, got.bind rfl⟩
  exact ⟨_, finds.bind rfl⟩

/-- The keys of the targets that were found have a common order. -/
theorem sortable_of_targets (prepares : endpoint.Prepares context plan)
    (keyed : (memory.contents.table endpoint.resource.name).Keyed endpoint.resource.keyName)
    (evaluates : ∀ entry ∈ memory.contents.table endpoint.resource.name,
      endpoint.Evaluates context.targetScope entry.2) {targets : List BatchTarget}
    (aimed : (endpoint.targets context plan).Yields (memory, side) targets) :
    ((memory.contents.table endpoint.resource.name).filter
      (endpoint.hits context.targetScope plan.rowKeys)).Pairwise
        fun left right => left.1.isSortableWith right.1 = true := by
  rw [targets_eq endpoint context prepares.aboutRows] at aimed
  obtain ⟨found, _, finds, _⟩ := Action.perform_bind_eq_ok.mp aimed
  obtain ⟨_, ⟨noKeys, _⟩ | ⟨scalars, rows, _, fetched, _⟩⟩ :=
    fetchTargets_eq_ok prepares.isResource prepares.isScopes finds
  · rw [noKeys, List.filter_eq_nil_iff.mpr]
    · exact .nil
    · exact fun entry _ => Bool.false_ne_true
  · obtain ⟨selected, byKey, _, selection, _, sorting, _, _⟩ :=
      Contents.fetchRows_eq_ok.mp fetched
    cases (selectRows_targets _ keyed scalars evaluates).symm.trans selection
    exact (areSortable_hits keyed).mp (Record.areSortable_of_sortBy sorting)

/-! ## Reading back -/

/-- The row under a key is the one that is fetched when it is read back. -/
theorem fetchRows_fresh {contents : Contents} {registry : Registry} {key : Value}
    {entry : Value × Record} {spec : QuerySpec} {counted : Record}
    (keyed : (contents.table context.resource.name).Keyed context.resource.keyName)
    (isEntry : entry ∈ contents.table context.resource.name)
    (scalar : Filter.isScalar key = true) (meant : entry.1.coincides key = true)
    (built : context.freshQuery = .ok spec)
    (live : Contents.inScope { resource := context.resource, trashed := context.freshScope }
      entry.2 = true)
    (counts : Contents.withCounts registry contents spec entry.2 = .ok counted) :
    contents.fetchRows registry
      (spec.whereNode (.leaf (Store.leafIn context.resource.keyName [key]))) none (some 1) =
        .ok ([counted].map (Record.project · (Contents.resultNames spec))) := by
  have onlyOne : (contents.table context.resource.name).rows.filter (fun row =>
      Contents.inScope { resource := context.resource, trashed := context.freshScope } row &&
        (row.get context.resource.keyName).coincides key) = [entry.2] := by
    have found := keyed.filter_eq (Value.isKey_of_isScalar scalar) isEntry meant
    have sameTest : (contents.table context.resource.name).filter (fun entry =>
        Contents.inScope { resource := context.resource, trashed := context.freshScope } entry.2 &&
          (Record.get entry.2 context.resource.keyName).coincides key) =
        (contents.table context.resource.name).filter (fun entry =>
          Contents.inScope { resource := context.resource, trashed := context.freshScope } entry.2 &&
            entry.1.coincides key) := by
      refine List.filter_congr fun entry isEntry => ?_
      rw [keyed.filed entry isEntry]
    rw [Table.rows, List.filter_map, Function.comp_def, sameTest, ← List.filter_filter, found,
      List.filter_singleton, live]
    rfl
  have matching := fun row => rowMatches_fresh built scalar row
  obtain ⟨columns, rfl⟩ := context.freshQuery_eq_ok built
  exact Contents.fetchRows_single rfl (fun row _ => matching row) onlyOne counts
    (keyed.complete entry isEntry)

/-- Without relations to load, the row under a key is read back when it lies in the scope of trashed
rows and gets its counts. -/
theorem refetch_yields {key : Value} {entry : Value × Record} {spec : QuerySpec} {counted : Record}
    (keyed : (memory.contents.table context.resource.name).Keyed context.resource.keyName)
    (isEntry : entry ∈ memory.contents.table context.resource.name)
    (scalar : Filter.isScalar key = true) (meant : entry.1.coincides key = true)
    (unrelated : context.requested = []) (built : context.freshQuery = .ok spec)
    (keyRead : spec.resource.keyName ∈ spec.selectedColumns)
    (live : Contents.inScope { resource := context.resource, trashed := context.freshScope }
      entry.2 = true)
    (counts : Contents.withCounts endpoint.registry memory.contents spec entry.2 = .ok counted) :
    ∃ entity, (endpoint.refetch context key).Yields (memory, side) entity := by
  have fetched := fetchRows_fresh keyed isEntry scalar meant built live counts
  have included : (spec.whereNode
      (.leaf (Store.leafIn context.resource.keyName [key]))).includes = [] := by
    obtain ⟨columns, rfl⟩ := context.freshQuery_eq_ok built
    change mergeRequests context.requested = []
    rw [unrelated, mergeRequests_nil]
  obtain ⟨entities, hydrated⟩ : ∃ entities, (Store.hydrate endpoint.registry
      (spec.whereNode (.leaf (Store.leafIn context.resource.keyName [key])))
      ([counted].map (Record.project · (Contents.resultNames spec)))).Yields
        (memory, side) entities :=
    Store.hydrate_yields_flat included keyRead [counted]
  obtain ⟨_, loads⟩ := (Store.hydrate_ensures endpoint.registry _ _).relatesOk hydrated
  have parsed := QuerySpec.ofKeys_eq built (List.forall_mem_singleton.mpr scalar)
  unfold refetch
  dsimp only
  rw [parsed]
  cases entities with
  | nil => cases loads.2
  | cons first rest =>
      have found : (Store.first endpoint.registry (spec.whereNode
          (.leaf (Store.leafIn context.resource.keyName [key])))).Yields (memory, side)
            (some first) :=
        (Memory.yields_fetchRows.mpr fetched).bind (hydrated.bind rfl)
      exact ⟨_, found.bind rfl⟩

end Endpoint

/-! ## Unique values -/

/-- A row with the values of another one in every column that may not repeat. -/
def Resource.KeepsUnique (resource : Resource) (row other : Record) : Prop :=
  ∀ columns, resource.model.DemandsUnique columns → ∀ name ∈ columns,
    other.get name = row.get name

namespace Table

variable {resource : Resource} {table : Table} {keyName : String}

/-- A table with the same keys in the same places, and rows that keep the values that may not
repeat. -/
def AlikeIn (resource : Resource) (table other : Table) : Prop :=
  List.Forall₂ (fun entry changed => changed.1 = entry.1 ∧
    resource.KeepsUnique entry.2 changed.2) table other

theorem AlikeIn.refl (resource : Resource) (table : Table) : AlikeIn resource table table :=
  List.forall₂_same.mpr fun _ _ => ⟨rfl, fun _ _ _ _ => rfl⟩

theorem alikeIn_revise (wellFiled : table.WellFiled keyName) {entry : Value × Record}
    (isEntry : entry ∈ table) {row : Record} (keeps : resource.KeepsUnique entry.2 row) :
    AlikeIn resource table (table.revise entry.1 fun _ => some row) := by
  rw [← replace_eq_revise, replace, AlikeIn, List.forall₂_map_right_iff, List.forall₂_same]
  intro old isOld
  split
  · rename_i meant
    rw [wellFiled.entry_eq isOld isEntry meant]
    exact ⟨rfl, keeps⟩
  · exact ⟨rfl, fun _ _ _ _ => rfl⟩

end Table

namespace Contents

variable {resource : Resource} {table other : Table} {key : Value} {row changed : Record}

theorem checkUnique_eq_ok :
    checkUnique resource table key row = .ok () ↔ repeated? resource table key row = none := by
  unfold checkUnique
  cases repeated? resource table key row with
  | none => simp
  | some columns => simp

/-- Whether a row passes the check is up to the columns that may not repeat. -/
theorem checkUnique_congr (sameRows : Table.AlikeIn resource table other)
    (sameRow : resource.KeepsUnique row changed)
    (passes : checkUnique resource table key row = .ok ()) :
    checkUnique resource other key changed = .ok () := by
  rw [checkUnique_eq_ok, repeated?, List.find?_eq_none] at passes ⊢
  intro columns isSet repeats
  refine passes columns isSet ?_
  have demands := Model.mem_uniqueColumnSets.mp isSet
  have sameValues : columns.map changed.get = columns.map row.get :=
    List.map_congr_left (sameRow columns demands)
  dsimp only at repeats ⊢
  rw [sameValues, Bool.and_eq_true, List.any_eq_true] at repeats
  obtain ⟨given, entry, isEntry, repeats⟩ := repeats
  obtain ⟨old, isOld, sameKey, sameEntry⟩ := exists_of_mem_right sameRows isEntry
  have sameItems : columns.map (Record.get entry.2) = columns.map (Record.get old.2) :=
    List.map_congr_left (sameEntry columns demands)
  rw [sameKey, sameItems] at repeats
  rw [Bool.and_eq_true, List.any_eq_true]
  exact ⟨given, old, isOld, repeats⟩

end Contents

namespace Endpoint

variable {τ : Type} {endpoint : Endpoint (Memory × τ)} {context : BatchContext}
variable {plan : BatchPlan} {memory : Memory} {side : τ} {entry : Value × Record}

/-- A batch that keeps its rows can read them back: it asks for no relations, and counts can be
taken. -/
structure ReadsBack (endpoint : Endpoint (Memory × τ)) (context : BatchContext) : Prop where
  keeps : context.readsBack = true
  unrelated : context.requested = []
  reads : ∃ spec, context.freshQuery = .ok spec ∧ spec.resource.keyName ∈ spec.selectedColumns ∧
    ∀ contents row, ∃ counted,
      Contents.withCounts endpoint.registry contents spec row = .ok counted

/-- Without relations, rows can be read back, whatever columns and counts are asked for. -/
theorem readsBack_bare (checked : endpoint.registry.Checked context.resource)
    (keeps : context.readsBack = true) (unrelated : context.requested = [])
    (declared : ∀ aggregate ∈ context.parameters.aggregates,
      aggregate.relation ∈ context.resource.aggregates) : endpoint.ReadsBack context := by
  refine ⟨keeps, unrelated, ?_⟩
  unfold BatchContext.freshQuery
  rw [unrelated, QuerySpec.ofParameters_bare]
  refine ⟨_, rfl, ?_, fun contents row => Contents.exists_withCounts fun aggregate isAsked => ?_⟩
  · cases context.parameters.columns with
    | none => exact checked.key
    | some columns => exact mem_distinctNames.mpr List.mem_cons_self
  · exact checked.counts (declared aggregate isAsked) contents row

/-- What lets the write for a row go through: the row keeps its key and the values that may not
repeat, it repeats none already, and it can be found afterwards. -/
structure Admits (context : BatchContext) (now : Moment) (payload : Record) (table : Table)
    (entry : Value × Record) : Prop where
  keepsKey : Record.get (Record.merge entry.2 (context.changes now payload entry.2))
    context.resource.keyName = entry.1
  keepsUnique : context.resource.KeepsUnique entry.2
    (Record.merge entry.2 (context.changes now payload entry.2))
  unique : context.changes now payload entry.2 = [] ∨
    Contents.checkUnique context.resource table entry.1 entry.2 = .ok ()
  live : Contents.inScope { resource := context.resource, trashed := context.freshScope }
    (Record.merge entry.2 (context.changes now payload entry.2)) = true

theorem Admits.congr {now : Moment} {payload : Record} {table other : Table}
    (admits : Admits context now payload table entry)
    (sameRows : table.AlikeIn context.resource other) :
    Admits context now payload other entry :=
  ⟨admits.keepsKey, admits.keepsUnique,
    admits.unique.imp_right (Contents.checkUnique_congr sameRows fun _ _ _ _ => rfl), admits.live⟩

theorem Admits.updates {contents : Contents} {now : Moment} {payload : Record}
    (admits : Admits context now payload (contents.table context.resource.name) entry)
    (filed : (contents.table context.resource.name).WellFiled context.resource.keyName)
    (isKey : entry.1.isKey = true) (isEntry : entry ∈ contents.table context.resource.name)
    (meant : entry.1.coincides entry.1 = true) :
    ∃ count updated, contents.update context.resource entry.1
      (context.changes now payload entry.2) = .ok (count, updated) := by
  by_cases unchanged : context.changes now payload entry.2 = []
  · exact ⟨0, contents,
      (Contents.update_filed filed isKey isEntry meant).mpr (.inl ⟨unchanged, rfl, rfl⟩)⟩
  · exact ⟨1, _, (Contents.update_filed filed isKey isEntry meant).mpr (.inr
      ⟨unchanged, rfl, Contents.checkUnique_congr (.refl _ _) admits.keepsUnique
        (admits.unique.resolve_left unchanged), rfl⟩)⟩

theorem serveTarget_goes (grants : endpoint.binding.authorizer.GrantsAll)
    (existing : context.verb ≠ .store)
    (trashable : context.verb = .restore → context.resource.softDeletes = true)
    (readsBack : endpoint.ReadsBack context)
    (keyed : (memory.contents.table context.resource.name).Keyed context.resource.keyName)
    (isEntry : entry ∈ memory.contents.table context.resource.name)
    (scalar : Filter.isScalar entry.1 = true) (meant : entry.1.coincides entry.1 = true)
    {target : BatchTarget} {payload : Record} (aims : target.Aims context payload entry)
    (admits : Admits context endpoint.now payload
      (memory.contents.table context.resource.name) entry) :
    ∃ entity contents, (endpoint.serveTarget context target).perform (memory, side) =
      (.ok entity, ({ memory with contents }, side)) := by
  obtain ⟨keeps, unrelated, spec, built, keyRead, counts⟩ := readsBack
  have isKey := Value.isKey_of_isScalar scalar
  obtain ⟨count, contents, updated⟩ := admits.updates keyed.toWellFiled isKey isEntry meant
  have written : (endpoint.mutate context target
      (target.filled context.verb target.entity)).perform (memory, side) =
        (.ok entry.1, ({ memory with contents }, side)) := by
    rw [mutate_eq existing trashable aims, if_pos keeps]
    exact Action.perform_bind_eq_ok.mpr
      ⟨count, _, Memory.perform_update_eq_ok.mpr ⟨contents, updated, rfl⟩, rfl⟩
  obtain ⟨_, _, same, _, revised, _⟩ := mutate_revises keyed.toWellFiled isEntry isKey meant
    existing trashable aims written
  cases same
  rw [BatchContext.fate, if_pos keeps] at revised
  have complete := keyed.complete entry isEntry
  have keyedAfter : (contents.table context.resource.name).Keyed context.resource.keyName := by
    rw [revised]
    refine keyed.revise_entry isEntry ?_
    rintro _ ⟨⟩
    exact ⟨admits.keepsKey, Record.has_merge complete⟩
  have inPlace : (entry.1, Record.merge entry.2 (context.changes endpoint.now payload entry.2)) ∈
      contents.table context.resource.name := by
    rw [revised]
    exact Table.mem_revise meant isEntry rfl
  obtain ⟨counted, counts⟩ := counts contents
    (Record.merge entry.2 (context.changes endpoint.now payload entry.2))
  obtain ⟨entity, fetched⟩ : ∃ entity, (endpoint.refetch context entry.1).Yields
      ({ memory with contents }, side) entity :=
    refetch_yields keyedAfter inPlace scalar meant unrelated built keyRead admits.live counts
  refine ⟨entity, contents, ?_⟩
  rw [perform_serveTarget grants]
  refine Action.perform_bind_eq_ok.mpr ⟨entry.1, _, written, ?_⟩
  rw [BatchSteps.refresh, if_pos keeps]
  exact fetched

/-- Targets are served one after another when each of their rows admits its write to begin with. -/
theorem serveTargets_go (grants : endpoint.binding.authorizer.GrantsAll)
    (existing : context.verb ≠ .store)
    (trashable : context.verb = .restore → context.resource.softDeletes = true)
    (readsBack : endpoint.ReadsBack context) {payloadOf : Value → Record}
    {entries : List (Value × Record)} {targets : List BatchTarget}
    (aims : List.Forall₂ (fun entry target => target.Aims context (payloadOf entry.1) entry)
      entries targets)
    (keyed : (memory.contents.table context.resource.name).Keyed context.resource.keyName)
    (included : entries ⊆ memory.contents.table context.resource.name)
    (areKeys : ∀ entry ∈ entries,
      Filter.isScalar entry.1 = true ∧ entry.1.coincides entry.1 = true)
    (apart : Table.Apart entries)
    (allowed : ∀ entry ∈ entries, Admits context endpoint.now (payloadOf entry.1)
      (memory.contents.table context.resource.name) entry) :
    ∃ found contents, (targets.mapM (endpoint.serveTarget context)).perform (memory, side) =
      (.ok found, ({ memory with contents }, side)) := by
  induction aims generalizing memory with
  | nil => exact ⟨[], memory.contents, rfl⟩
  | @cons entry target entries targets first rest induction =>
      rw [List.cons_subset] at included
      rw [List.forall_mem_cons] at areKeys allowed
      rw [Table.Apart, List.pairwise_cons] at apart
      have isKey := Value.isKey_of_isScalar areKeys.1.1
      obtain ⟨entity, contents, served⟩ : ∃ entity contents,
          (endpoint.serveTarget context target).perform (memory, side) =
            (.ok entity, ({ memory with contents }, side)) :=
        serveTarget_goes grants existing trashable readsBack keyed included.1 areKeys.1.1
          areKeys.1.2 first allowed.1
      obtain ⟨kept, _, _, same, _, revised, _⟩ := serveTarget_revises grants existing trashable keyed
        included.1 isKey areKeys.1.2 first served
      cases same
      have keyedAfter : (contents.table context.resource.name).Keyed context.resource.keyName := by
        rw [revised]
        exact keyed.revise_entry included.1 kept
      have stays : entries ⊆ contents.table context.resource.name := by
        rw [revised]
        exact fun other isOther =>
          Table.mem_revise_of_apart (included.2 isOther) (apart.1 other isOther).2
      have sameRows : Table.AlikeIn context.resource
          (memory.contents.table context.resource.name)
          (contents.table context.resource.name) := by
        rw [revised, BatchContext.fate, if_pos readsBack.keeps]
        exact Table.alikeIn_revise keyed.toWellFiled included.1 allowed.1.keepsUnique
      obtain ⟨found, last, others⟩ : ∃ found last,
          (targets.mapM (endpoint.serveTarget context)).perform ({ memory with contents }, side) =
            (.ok found, ({ memory with contents := last }, side)) :=
        induction keyedAfter stays areKeys.2 apart.2
          fun other isOther => (allowed.2 other isOther).congr sameRows
      refine ⟨entity :: found, last, ?_⟩
      rw [List.mapM_cons]
      exact Action.perform_bind_eq_ok.mpr ⟨entity, _, served,
        Action.perform_bind_eq_ok.mpr ⟨found, _, others, rfl⟩⟩

/-- A batch on existing rows comes to an outcome when its targets can be found and their rows admit
the writes. -/
theorem runBatch_goes {verb : BatchVerb} {request : Request} {input : BatchInput}
    (silent : endpoint.binding.hooksFor verb = .silent)
    (grants : endpoint.binding.authorizer.GrantsAll) (existing : verb ≠ .store)
    (noneOpen : memory.snapshot = none)
    (prepared : endpoint.prepareBatch verb request input = .ok (context, plan))
    (keyColumn : endpoint.resource.keyName ∈ endpoint.resource.columns)
    (keyed : (memory.contents.table endpoint.resource.name).Keyed endpoint.resource.keyName)
    (readsBack : endpoint.ReadsBack context)
    (scalars : ∀ key ∈ plan.rowKeys, Filter.isScalar key = true)
    (evaluates : ∀ entry ∈ memory.contents.table endpoint.resource.name,
      endpoint.Evaluates context.targetScope entry.2)
    (sortable : ((memory.contents.table endpoint.resource.name).filter
      (endpoint.hits context.targetScope plan.rowKeys)).Pairwise
        fun left right => left.1.isSortableWith right.1 = true)
    (allowed : ∀ entry ∈ endpoint.reached context.targetScope memory.contents plan.rowKeys,
      Admits context endpoint.now (plan.payloadFor entry.1)
        (memory.contents.table endpoint.resource.name) entry) :
    ∃ outcome contents, (endpoint.runBatch verb request input).perform (memory, side) =
      (.ok outcome, ({ memory with contents }, side)) := by
  have prepares := prepareBatch_prepares existing prepared
  have opened : (memory.opened.contents.table endpoint.resource.name).Keyed
    endpoint.resource.keyName := keyed
  obtain ⟨targets, aimed⟩ : ∃ targets,
      (endpoint.targets context plan).Yields (memory.opened, side) targets :=
    targets_yields prepares keyColumn opened readsBack.unrelated scalars evaluates sortable
  obtain ⟨_, _, aims⟩ := targets_aim prepares opened aimed
  have areKeys : ∀ key ∈ plan.rowKeys, key.isKey = true :=
    fun key isKey => Value.isKey_of_isScalar (scalars key isKey)
  have included : endpoint.reached context.targetScope memory.opened.contents plan.rowKeys ⊆
      memory.opened.contents.table endpoint.resource.name :=
    fun entry member => (mem_reached member).1
  have scalarKeys : ∀ entry ∈ endpoint.reached context.targetScope memory.opened.contents
      plan.rowKeys, Filter.isScalar entry.1 = true ∧ entry.1.coincides entry.1 = true := by
    intro entry member
    obtain ⟨_, _, key, isKey, meant⟩ := mem_reached member
    exact ⟨Value.isScalar_of_coincides (scalars key isKey) meant,
      (key_of_mem_reached areKeys member).2⟩
  have apart : Table.Apart (endpoint.reached context.targetScope memory.opened.contents
      plan.rowKeys) := apart_reached areKeys prepares.different
  rw [← prepares.isResource] at opened included allowed
  obtain ⟨entities, contents, served⟩ : ∃ entities contents,
      (targets.mapM (endpoint.serveTarget context)).perform (memory.opened, side) =
        (.ok entities, ({ memory.opened with contents }, side)) :=
    serveTargets_go grants prepares.existing prepares.trashable readsBack aims opened included
      scalarKeys apart allowed
  exact ⟨_, contents, (runBatch_eq_ok silent grants).mpr
    ⟨context, plan, targets, entities, contents, prepared, noneOpen, aimed, served, rfl, rfl⟩⟩

end Endpoint

end ResourceServer
