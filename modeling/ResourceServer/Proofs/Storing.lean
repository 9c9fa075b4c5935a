import ResourceServer.Proofs.Batch.Silent
import ResourceServer.Proofs.Confinement
import ResourceServer.Proofs.Query.Listing
import ResourceServer.Proofs.Resolution.Requests
import ResourceServer.Proofs.Sql.Uniqueness

/-!
# Storing

A batch that stores adds rows at the end of a table, each under a key that no other row has, and
answers with what it reads back under these keys.  Where every row is filed under its key, that is
the row that was added: it is not trashed, and it holds what the endpoint demands of it, whatever
the payload says.
-/

namespace ResourceServer

/-! ## Entries that are kept -/

theorem Entries.lookup_filter {α : Type} {entries : List (String × α)} {name : String} {value : α}
    {keep : String × α → Bool} (found : entries.lookup name = some value)
    (kept : keep (name, value) = true) : (entries.filter keep).lookup name = some value := by
  induction entries with
  | nil => cases found
  | cons entry rest induction =>
      obtain ⟨first, other⟩ := entry
      rw [lookup_cons] at found
      rw [List.filter_cons]
      split at found
      · rename_i same
        cases found
        rw [← same, if_pos kept, lookup_cons, if_pos rfl]
      · rename_i different
        split
        · rw [lookup_cons, if_neg different]
          exact induction found
        · exact induction found

theorem Record.get?_of_get {record : Record} {name : String} {value : Value}
    (held : record.get name = value) (notNull : value ≠ .null) :
    record.get? name = some value := by
  unfold get at held
  unfold get?
  cases found : record.lookup name with
  | none =>
      rw [found] at held
      exact absurd held.symm notNull
  | some other =>
      rw [found] at held
      exact congrArg some held

theorem Record.has_set_self (row : Record) (name : String) (value : Value) :
    (row.set name value).has name = true := by
  rw [has, ← Entries.lookup_isSome]
  change ((row.set name value).get? name).isSome = true
  rw [get?_set, if_pos rfl]
  rfl

theorem Model.get_rowOf_given {model : Model} {values : Record} {name : String} {value : Value}
    (isColumn : name ∈ model.columnNames) (given : values.get? name = some value) :
    (model.rowOf values).get name = value := by
  obtain ⟨column, member, isName⟩ := List.mem_map.mp isColumn
  have found : (model.column? name).isSome = true := by
    rw [column?, List.find?_isSome]
    exact ⟨column, member, beq_iff_eq.mpr isName⟩
  obtain ⟨other, isOther⟩ := Option.isSome_iff_exists.mp found
  have sameName : other.name = name := by
    simpa using List.find?_some isOther
  rw [Record.get, rowOf, lookup_columns, isOther, Option.map_some, sameName, given]
  rfl

/-! ## Keys -/

namespace Value

theorem isKey_of_key_coincides {key other : Value} (isKey : key.isKey = true)
    (coincide : key.coincides other = true) : other.isKey = true := by
  cases other with
  | list items =>
      cases key with
      | list others => cases isKey
      | object members => cases isKey
      | _ => cases coincide
  | object members =>
      cases key with
      | list items => cases isKey
      | object others => cases isKey
      | _ => cases coincide
  | _ => rfl

theorem coincides_symm_of_isKey {key other : Value} (isKey : key.isKey = true)
    (coincide : key.coincides other = true) : other.coincides key = true := by
  obtain ⟨mark, rfl⟩ | orderly := isKey_cases isKey
  · obtain rfl := nan_coincides coincide
    exact coincide
  · obtain ⟨mark, rfl⟩ | otherOrderly := isKey_cases (isKey_of_key_coincides isKey coincide)
    · obtain rfl := coincides_nan coincide
      exact coincide
    · exact orderly.coincides_symm otherOrderly coincide

theorem coincides_comm_of_isKey {key other : Value} (isKey : key.isKey = true)
    (otherKey : other.isKey = true) : key.coincides other = other.coincides key :=
  Bool.eq_iff_iff.mpr ⟨coincides_symm_of_isKey isKey, coincides_symm_of_isKey otherKey⟩

theorem coincides_congr {found key : Value} (foundKey : found.isKey = true) (isKey : key.isKey = true)
    (same : found.coincides key = true) (value : Value) :
    value.coincides found = value.coincides key := by
  rw [Bool.eq_iff_iff]
  constructor
  · exact fun meant => coincides_trans_of_isKey foundKey isKey meant same
  · exact fun meant =>
      coincides_trans_of_isKey isKey foundKey meant (coincides_symm_of_isKey foundKey same)

end Value

namespace Table

variable {table : Table} {keyName : String} {key : Value} {row : Record}

/-- Every row has the key column and is filed under the value of it, and no two keys are equal. -/
structure Keyed (keyName : String) (table : Table) : Prop extends table.WellFiled keyName where
  complete : ∀ entry ∈ table, Record.has entry.2 keyName = true

theorem Keyed.append (keyed : table.Keyed keyName) (isKey : key.isKey = true)
    (absent : table.hasKey key = false) (filed : row.get keyName = key)
    (complete : row.has keyName = true) : Keyed keyName (table ++ [(key, row)]) where
  filed := by
    simp only [List.mem_append, List.mem_singleton]
    rintro entry (member | rfl)
    · exact keyed.filed entry member
    · exact filed
  distinct := by
    refine List.pairwise_append.mpr ⟨keyed.distinct, List.pairwise_singleton _ _, ?_⟩
    intro entry member added isAdded
    obtain rfl := List.mem_singleton.mp isAdded
    have apart := hasKey_eq_false absent member
    refine ⟨apart, ?_⟩
    rw [← Bool.not_eq_true] at apart ⊢
    exact fun coincide => apart (Value.coincides_symm_of_isKey isKey coincide)
  complete := by
    simp only [List.mem_append, List.mem_singleton]
    rintro entry (member | rfl)
    · exact keyed.complete entry member
    · exact complete

end Table

/-! ## Rows that are added and found -/

namespace Contents

variable {registry : Registry} {contents after : Contents} {resource : Resource} {values : Record}
variable {key : Value} {spec : QuerySpec}

theorem insert_keyed (keyed : (contents.table resource.name).Keyed resource.keyName)
    (done : contents.insert resource values = .ok (key, after)) :
    key = contents.newKey resource values ∧ key.isKey = true ∧
      (contents.table resource.name).hasKey key = false ∧
      after.table resource.name = contents.table resource.name ++
        [(key, (resource.model.rowOf values).set resource.keyName key)] ∧
      (after.table resource.name).Keyed resource.keyName := by
  obtain ⟨isNew, isKey, absent, _, rfl⟩ := insert_eq_ok done
  rw [table_withKey, table_withTable]
  refine ⟨isNew, isKey, absent, rfl, keyed.append isKey absent ?_ (Record.has_set_self _ _ _)⟩
  rw [Record.get_set, if_pos rfl]

/-- The row that is added holds the values that are given, the key included. -/
theorem get_newRow {field : String} {value : Value} (isColumn : field ∈ resource.columns)
    (given : values.get? field = some value) (notNull : value ≠ .null) :
    ((resource.model.rowOf values).set resource.keyName
      (contents.newKey resource values)).get field = value := by
  have held := Model.get_rowOf_given isColumn given
  rw [Record.get_set]
  split
  · rename_i isKey
    rw [newKey, ← isKey, held]
    split
    · exact absurd rfl notNull
    · rfl
  · exact held

theorem inScope_of_rowMatches {row : Record} (matching : rowMatches spec row = .ok true) :
    inScope spec row = true := by
  unfold rowMatches at matching
  split at matching
  · rename_i scope
    exact scope
  · cases matching

theorem exists_selected {rows selected : List Record} {row : Record}
    (done : selectRows registry contents spec rows = .ok selected) (isRow : row ∈ rows)
    (matching : rowMatches spec row = .ok true) :
    ∃ counted ∈ selected, withCounts registry contents spec row = .ok counted := by
  induction rows generalizing selected with
  | nil => cases isRow
  | cons first rest induction =>
      obtain ⟨unmatched, done⟩ | ⟨_, counted, others, counts, goesOn, rfl⟩ :=
        selectRows_cons_eq_ok.mp done
      · cases List.mem_cons.mp isRow with
        | inl same =>
            subst same
            cases matching.symm.trans unmatched
        | inr later => exact induction done later
      · cases List.mem_cons.mp isRow with
        | inl same =>
            subst same
            exact ⟨counted, List.mem_cons_self, counts⟩
        | inr later =>
            obtain ⟨found, member, counts⟩ := induction goesOn later
            exact ⟨found, List.mem_cons_of_mem _ member, counts⟩

theorem key_withCounts {row counted : Record}
    (uncounted : spec.resource.keyName ∉ spec.aggregateAliases)
    (counts : withCounts registry contents spec row = .ok counted) :
    counted.get spec.resource.keyName = row.get spec.resource.keyName := by
  cases get_withCounts counts with
  | inl isCount => exact absurd isCount.1 uncounted
  | inr kept => exact kept.2

end Contents

/-- No count is named like the key column. -/
def Resource.KeyUncounted (resource : Resource) : Prop :=
  ∀ name ∈ resource.aggregates, AggregateRequest.alias ⟨name⟩ ≠ resource.keyName

/-- Whatever a request counts, it does not hide the key. -/
theorem Resource.KeyUncounted.effective {settings : Settings} {resource : Resource} {given : Record}
    {parameters : QueryParameters} (uncounted : resource.KeyUncounted)
    (read : QueryParameters.ofRequest settings resource given = .ok parameters) :
    resource.keyName ∉ parameters.aggregates.map AggregateRequest.alias ∧
      resource.keyName ∉
        (parameters.effectiveAggregates resource).map AggregateRequest.alias := by
  have asked := (QueryParameters.ofRequest_names read).2
  constructor
  · rw [List.mem_map]
    rintro ⟨aggregate, isAsked, isKey⟩
    exact uncounted _ (asked aggregate isAsked) isKey
  · rw [List.mem_map]
    rintro ⟨aggregate, isTaken, isKey⟩
    cases QueryParameters.mem_effectiveAggregates isTaken with
    | inl isAsked => exact uncounted _ (asked aggregate isAsked) isKey
    | inr isDeclared => exact uncounted _ isDeclared isKey

namespace Store.Loads

variable {registry : Registry} {contents : Contents} {spec : QuerySpec} {rows : List Record}
variable {entities : List Entity}

theorem keyOf {offset limit : Option Int}
    (uncounted : spec.resource.keyName ∉ spec.aggregateAliases)
    (fetched : contents.fetchRows registry spec offset limit = .ok rows)
    (loads : Loads spec.resource rows entities) :
    ∀ entity ∈ entities, ∃ row ∈ (contents.table spec.resource.name).rows,
      Contents.rowMatches spec row = .ok true ∧
        entity.key = row.get spec.resource.keyName := by
  intro entity member
  obtain ⟨row, inTable, matching, counted, counts, _, isKey⟩ := loads.source fetched entity member
  exact ⟨row, inTable, matching, isKey.trans (Contents.key_withCounts uncounted counts)⟩

/-- Whatever matches is loaded under its key. -/
theorem exists_key (uncounted : spec.resource.keyName ∉ spec.aggregateAliases)
    (fetched : contents.fetchRows registry spec none none = .ok rows)
    (loads : Loads spec.resource rows entities) {row : Record}
    (isRow : row ∈ (contents.table spec.resource.name).rows)
    (matching : Contents.rowMatches spec row = .ok true) :
    ∃ entity ∈ entities, entity.key = row.get spec.resource.keyName := by
  obtain ⟨selected, byKey, sorted, selection, _, keyed, sorting, rfl⟩ :=
    Contents.fetchRows_eq_ok.mp fetched
  obtain ⟨counted, isSelected, counts⟩ := Contents.exists_selected selection isRow matching
  have permutation := (Record.sortByAll_perm sorting).trans (Record.sortBy_perm keyed)
  have isResult : counted.project (Contents.resultNames spec) ∈
      (Contents.window none none sorted).map (Record.project · (Contents.resultNames spec)) := by
    rw [Contents.window_none]
    exact List.mem_map_of_mem (permutation.symm.subset isSelected)
  have inBare : Store.entityOf spec.resource (counted.project (Contents.resultNames spec)) ∈
      entities.map Entity.bare := by
    rw [loads.2]
    exact List.mem_map_of_mem isResult
  obtain ⟨entity, member, isBare⟩ := List.mem_map.mp inBare
  refine ⟨entity, member, ?_⟩
  rw [← Entity.key_bare, isBare, ← Contents.key_withCounts uncounted counts,
    ← Record.get_project (Record.has_project.mp (loads.1 _ isResult))]
  rfl

end Store.Loads

/-! ## Batches that store -/

/-- What every step keeps holds after all of them, and so does what each of them has reached. -/
theorem Action.mapM_keeps {σ α β : Type} {step : α → Action σ β} {keeps : σ → Prop}
    {reached : σ → β → Prop} {items : List α} {before after : σ} {results : List β}
    (steps : ∀ item ∈ items, ∀ before result after, keeps before →
      (step item).perform before = (.ok result, after) →
        keeps after ∧ reached after result ∧ ∀ earlier, reached before earlier →
          reached after earlier)
    (starts : keeps before) (done : (items.mapM step).perform before = (.ok results, after)) :
    keeps after ∧ (∀ result ∈ results, reached after result) ∧
      ∀ earlier, reached before earlier → reached after earlier := by
  induction items generalizing before results with
  | nil =>
      rw [List.mapM_nil] at done
      cases done
      exact ⟨starts, nofun, fun _ => id⟩
  | cons item rest induction =>
      rw [List.forall_mem_cons] at steps
      rw [List.mapM_cons] at done
      obtain ⟨result, middle, first, done⟩ := Action.perform_bind_eq_ok.mp done
      obtain ⟨others, last, later, done⟩ := Action.perform_bind_eq_ok.mp done
      cases done
      obtain ⟨goesOn, isReached, stays⟩ := steps.1 before result middle starts first
      obtain ⟨ends, allReached, stay⟩ := induction steps.2 goesOn later
      refine ⟨ends, ?_, fun earlier holds => stay earlier (stays earlier holds)⟩
      exact List.forall_mem_cons.mpr ⟨stay result isReached, allReached⟩

namespace Memory

variable {τ : Type}

theorem contents_begin {before opened : Memory × τ}
    (begun : (Store.begin : Action (Memory × τ) Unit).perform before = (.ok (), opened)) :
    opened.1.contents = before.1.contents := by
  obtain ⟨memory, side⟩ := before
  cases isOpen : memory.snapshot with
  | some snapshot =>
      rw [perform_begin_again isOpen] at begun
      cases begun
  | none =>
      rw [perform_begin isOpen] at begun
      cases begun
      rfl

theorem contents_commit {inside : Memory × τ} :
    ((Store.commit : Action (Memory × τ) Unit).perform inside).2.1.contents =
      inside.1.contents := by
  obtain ⟨memory, side⟩ := inside
  change ((close.onFirst : Action (Memory × τ) Unit).perform (memory, side)).2.1.contents = _
  rw [Action.perform_onFirst, Action.perform, close]
  cases memory.snapshot <;> rfl

theorem perform_insert_eq_ok {resource : Resource} {values : Record} {key : Value}
    {before after : Memory × τ}
    (done : (Store.insert resource values : Action (Memory × τ) _).perform before =
      (.ok key, after)) :
    ∃ contents, before.1.contents.insert resource values = .ok (key, contents) ∧
      after = ({ before.1 with contents }, before.2) := by
  change ((write fun contents => contents.insert resource values).onFirst :
    Action (Memory × τ) _).perform (before.1, before.2) = _ at done
  rw [perform_write] at done
  cases inserted : before.1.contents.insert resource values with
  | error error =>
      rw [inserted] at done
      cases done
  | ok both =>
      rw [inserted] at done
      cases done
      exact ⟨both.2, rfl, rfl⟩

end Memory

namespace Endpoint

variable {τ : Type} {endpoint : Endpoint (Memory × τ)} {context : BatchContext} {field : String}
variable {value : Value}

/-- A call that leaves the value of a field of an entity. -/
def KeepsField (field : String) (before after : Entity) : Prop := after.get field = before.get field

instance : Std.Refl (KeepsField field) := ⟨fun _ => rfl⟩

/-- The entity has the key of a row that is not trashed and has a value in a field, and can be found
by it. -/
def Keeps (endpoint : Endpoint (Memory × τ)) (field : String) (value : Value) (state : Memory × τ)
    (entity : Entity) : Prop :=
  ∃ row, (entity.key, row) ∈ state.1.contents.table endpoint.resource.name ∧
    entity.key.coincides entity.key = true ∧ row.get field = value ∧
      endpoint.resource.isTrashed row = false

def IsKeyed (endpoint : Endpoint (Memory × τ)) (state : Memory × τ) : Prop :=
  (state.1.contents.table endpoint.resource.name).Keyed endpoint.resource.keyName

/-- What is read back after storing is a row with the key that is not trashed. -/
theorem refetch_eq_ok {key : Value} {memory : Memory} {side : τ} {entity : Entity}
    {after : Memory × τ}
    (uncounted : context.resource.keyName ∉
      context.parameters.aggregates.map AggregateRequest.alias)
    (done : (endpoint.refetch context key).perform (memory, side) = (.ok entity, after)) :
    after = (memory, side) ∧ ∃ row ∈ (memory.contents.table context.resource.name).rows,
      Contents.inScope { resource := context.resource, trashed := context.freshScope } row = true ∧
        (row.get context.resource.keyName).coincides key = true ∧
          entity.key = row.get context.resource.keyName := by
  obtain ⟨spec, parsed, done⟩ := Action.perform_compute_eq_ok.mp done
  obtain ⟨found, middle, loaded, done⟩ := Action.perform_bind_eq_ok.mp done
  obtain ⟨rfl, rows, entities, fetched, loads, isFound⟩ := Store.first_eq_ok loaded
  cases found with
  | none => cases done
  | some first =>
      have sameKey : after = (memory, side) ∧ entity.key = first.key := by
        cases done
        refine ⟨rfl, ?_⟩
        split
        · cases first
          rfl
        · rfl
      obtain ⟨wide, isWide, narrowed⟩ := bind_eq_ok.mp parsed
      obtain ⟨columns, rfl⟩ := QuerySpec.ofParameters_eq_ok isWide
      obtain ⟨leaf, made, narrowed⟩ := bind_eq_ok.mp narrowed
      cases narrowed
      obtain ⟨⟨items, isItems, scalars⟩, rfl⟩ := Filter.Leaf.make_eq_ok.mp made
      cases isItems
      have given : Value.null ∉ [key] := fun isNull => nomatch scalars _ isNull
      have notCounted : context.resource.keyName ∉ (QueryParameters.effectiveAggregates
          { trashed := context.freshScope, columns := context.parameters.columns,
            aggregates := context.parameters.aggregates } context.resource).map
              AggregateRequest.alias := by
        rw [QueryParameters.effectiveAggregates_of_unsorted rfl]
        exact uncounted
      obtain ⟨row, inTable, matching, isKey⟩ :=
        loads.keyOf notCounted fetched first (List.mem_of_mem_head? isFound.symm)
      have holds := Filter.evaluateAll_eq_true.mp (Contents.evaluateAll_of_rowMatches matching)
        _ (List.mem_append_right _ (List.mem_singleton_self _))
      rw [Filter.Node.evaluate, Filter.Leaf.evaluate_isIn given] at holds
      have live := Contents.inScope_of_rowMatches matching
      refine ⟨sameKey.1, row, inTable, live, ?_, sameKey.2.trans isKey⟩
      simpa [Value.isIn] using Except.ok.inj holds

theorem get?_newValues {resource : Resource} {entity : Entity} (isColumn : field ∈ resource.columns)
    (held : entity.get field = value) (notNull : value ≠ .null) :
    Record.get? (BatchTarget.newValues resource entity) field = some value := by
  refine Entries.lookup_filter (Record.get?_of_get held notNull) ?_
  simp [Value.isNull_eq_false.mpr notNull, isColumn]

/-- Storing one entity with a value in a field adds a row with the value there, and keeps the rows
that are there. -/
theorem serveTarget_keeps {target : BatchTarget} {before after : Memory × τ} {entity : Entity}
    (respects : endpoint.binding.authorizer.Respects Untouched (KeepsField field))
    (isColumn : field ∈ endpoint.resource.columns) (notNull : value ≠ .null)
    (isVerb : context.verb = .store) (isResource : context.resource = endpoint.resource)
    (uncounted : endpoint.resource.keyName ∉
      context.parameters.aggregates.map AggregateRequest.alias)
    (held : target.entity.get field = value) (keyed : endpoint.IsKeyed before)
    (done : (endpoint.serveTarget context target).perform before = (.ok entity, after)) :
    endpoint.IsKeyed after ∧ endpoint.Keeps field value after entity ∧
      ∀ earlier, endpoint.Keeps field value before earlier →
        endpoint.Keeps field value after earlier := by
  obtain ⟨authorized, ⟨memory, side⟩, checked, done⟩ := Action.perform_bind_eq_ok.mp done
  obtain ⟨untouched, kept⟩ :=
    (Authorizer.checkEntity_ensures respects context.ability target.entity _).relatesOk checked
  obtain rfl : memory = before.1 := untouched
  obtain ⟨key, middle, mutated, done⟩ := Action.perform_bind_eq_ok.mp done
  rw [mutate, isVerb, isResource] at mutated
  obtain ⟨contents, inserted, rfl⟩ := Memory.perform_insert_eq_ok mutated
  obtain ⟨isNew, isKey, absent, table, keyedAfter⟩ := Contents.insert_keyed keyed inserted
  have readBack : (endpoint.refetch context key).perform ({ before.1 with contents }, side) =
      (.ok entity, after) := by
    rw [BatchSteps.refresh, BatchContext.readsBack, isVerb] at done
    exact done
  rw [← isResource] at uncounted
  obtain ⟨rfl, row, inTable, live, coincide, isEntity⟩ := refetch_eq_ok uncounted readBack
  rw [isResource] at inTable live coincide isEntity
  obtain ⟨entry, member, rfl⟩ := List.mem_map.mp inTable
  rw [keyedAfter.filed entry member] at coincide isEntity
  -- The row that was read back is the new one, since no row had its key before.
  have added : entry = (key, (endpoint.resource.model.rowOf (BatchTarget.newValues
      endpoint.resource authorized)).set endpoint.resource.keyName key) := by
    have isEntry : entry ∈ contents.table endpoint.resource.name := member
    rw [table, List.mem_append, List.mem_singleton] at isEntry
    cases isEntry with
    | inl earlier => cases (Table.hasKey_eq_false absent earlier).symm.trans coincide
    | inr added => exact added
  have isFound : entry.1 = key := congrArg Prod.fst added
  refine ⟨keyedAfter, ⟨entry.2, ?_, ?_, ?_, ?_⟩, ?_⟩
  · rw [isEntity]
    exact member
  · rw [isEntity]
    rwa [← isFound] at coincide
  · rw [added, isNew]
    exact Contents.get_newRow isColumn (get?_newValues isColumn (kept.trans held) notNull) notNull
  · rw [BatchContext.freshScope, isVerb, Contents.inScope] at live
    cases softDeletes : endpoint.resource.softDeletes with
    | false => rw [Resource.isTrashed, softDeletes, Bool.false_and]
    | true => simpa [softDeletes] using live
  · rintro earlier ⟨row, isRow, holds⟩
    refine ⟨row, ?_, holds⟩
    change _ ∈ contents.table endpoint.resource.name
    rw [table]
    exact List.mem_append_left _ isRow

/-- A batch that comes to an outcome leaves the contents that its steps have reached. -/
theorem run_contents {steps : BatchSteps (Memory × τ)} {plan : BatchPlan} {outcome : BatchOutcome}
    {before after : Memory × τ}
    (done : (steps.run context plan).perform before = (.ok outcome, after)) :
    ∃ opened inside, opened.1.contents = before.1.contents ∧
      (steps.execute context plan).perform opened = (.ok outcome, inside) ∧
        after.1.contents = inside.1.contents := by
  obtain ⟨opened, inside, begun, executed⟩ := run_eq_ok done
  refine ⟨opened, inside, Memory.contents_begin begun, executed, ?_⟩
  rw [BatchSteps.perform_run, begun] at done
  dsimp only at done
  rw [executed] at done
  have final : (Store.commit.perform inside).2 = after := congrArg Prod.snd done
  rw [← final]
  exact Memory.contents_commit

/-- What is stored at an endpoint is kept with the value that the endpoint demands. -/
theorem runBatch_keeps {request : Request} {input : BatchInput} {before after : Memory × τ}
    {outcome : BatchOutcome} (silent : endpoint.binding.hooksFor .store = .silent)
    (respects : endpoint.binding.authorizer.Respects Untouched (KeepsField field))
    (isColumn : field ∈ endpoint.resource.columns) (notNull : value ≠ .null)
    (uncounted : endpoint.resource.KeyUncounted) (demands : endpoint.attributes = [(field, value)])
    (keyed : endpoint.IsKeyed before)
    (done : (endpoint.runBatch .store request input).perform before = (.ok outcome, after)) :
    outcome.response = none ∧ endpoint.IsKeyed after ∧
      ∀ entity ∈ outcome.entities, endpoint.Keeps field value after entity := by
  obtain ⟨⟨context, plan⟩, prepared, ran⟩ := Action.perform_compute_eq_ok.mp done
  obtain ⟨checked, parameters, requested, force, read, _, rfl⟩ := prepareBatch_eq_ok prepared
  dsimp only at ran
  rw [silent] at ran
  obtain ⟨opened, inside, starts, executed, ends⟩ := run_contents ran
  rw [execute_silent] at executed
  obtain ⟨targets, middle, aimed, served⟩ := Action.perform_bind_eq_ok.mp executed
  obtain ⟨entities, last, served, isOutcome⟩ := Action.perform_bind_eq_ok.mp served
  cases isOutcome
  -- What the endpoint demands is merged over each payload.
  have demanded : middle = opened ∧ ∀ target ∈ targets, target.entity.get field = value := by
    simp only [BatchPlan.ofInput] at checked
    split at checked
    · cases checked
    · obtain ⟨payloads, _, isPlan⟩ := bind_eq_ok.mp checked
      cases isPlan
      cases aimed
      refine ⟨rfl, fun target isTarget => ?_⟩
      obtain ⟨payload, _, rfl⟩ := List.mem_map.mp isTarget
      change (payload.merge endpoint.attributes).get field = value
      rw [demands]
      change (payload.set field value).get field = value
      rw [Record.get_set, if_pos rfl]
  obtain ⟨rfl, held⟩ := demanded
  have openedKeyed : endpoint.IsKeyed middle := by
    rw [IsKeyed, starts]
    exact keyed
  obtain ⟨keyedInside, kept, _⟩ := Action.mapM_keeps (fun target isTarget _ _ _ keyed done =>
    serveTarget_keeps respects isColumn notNull rfl rfl (uncounted.effective read).1
      (held target isTarget) keyed done) openedKeyed served
  refine ⟨rfl, ?_, fun entity isEntity => ?_⟩
  · rw [IsKeyed, ends]
    exact keyedInside
  · rw [Keeps, ends]
    exact kept entity isEntity

/-! ## Answers of operations that store -/

section Answers

variable {request : Request} {before after : Memory × τ}

/-- What an operation that stores answers with: the entities of a batch, or the first of them. -/
inductive AnswersStored (endpoint : Endpoint (Memory × τ)) (request : Request)
    (before after : Memory × τ) : Operation → List Entity → Answer → Prop
  | single {outcome : BatchOutcome} {entity : Entity}
      (ran : (endpoint.runBatch .store request (.given (.list [.object request.body]))).perform
        before = (.ok outcome, after))
      (first : outcome.entities.head? = some entity) :
      AnswersStored endpoint request before after .store [entity]
        (.envelope (.ofEntity outcome.requested entity))
  | many {outcome : BatchOutcome}
      (ran : (endpoint.runBatch .store request (resourcesOf request)).perform before =
        (.ok outcome, after)) :
      AnswersStored endpoint request before after (.batch .store) outcome.entities
        (.envelope (.ofEntities outcome.requested outcome.entities))

theorem AnswersStored.of_store {entities : List Entity} {answer : Answer}
    (stored : endpoint.AnswersStored request before after .store entities answer) :
    ∃ outcome entity,
      (endpoint.runBatch .store request (.given (.list [.object request.body]))).perform before =
        (.ok outcome, after) ∧
      outcome.entities.head? = some entity ∧ entities = [entity] := by
  cases stored with
  | single ran first => exact ⟨_, _, ran, first, rfl⟩

/-- An operation that stores runs a batch, and answers with what it has stored. -/
theorem answersStored_of_answer {operation : Operation} {answer : Answer} {reached : Prop}
    {property : Entity → Prop}
    (each : ∀ input outcome, (endpoint.runBatch .store request input).perform before =
      (.ok outcome, after) →
        outcome.response = none ∧ reached ∧ ∀ entity ∈ outcome.entities, property entity)
    (stores : operation = .store ∨ operation = .batch .store)
    (done : (operation.perform endpoint request).perform before = (.ok answer, after)) :
    reached ∧ ∃ entities, endpoint.AnswersStored request before after operation entities answer ∧
      ∀ entity ∈ entities, property entity := by
  have checked : ∀ {middle : Memory × τ},
      endpoint.checkStore.perform before = (.ok (), middle) → middle = before := by
    intro middle checked
    unfold checkStore at checked
    split at checked
    · cases checked
      rfl
    · cases checked
  obtain rfl | rfl := stores
  · obtain ⟨_, middle, allowed, goesOn⟩ := Action.perform_bind_eq_ok.mp done
    obtain rfl := checked allowed
    obtain ⟨outcome, last, ran, goesOn⟩ := Action.perform_bind_eq_ok.mp goesOn
    have response : outcome.response = none := by
      cases known : outcome.response with
      | none => rfl
      | some value =>
          rw [answerSingle, known] at goesOn
          cases goesOn
          exact known.symm.trans (each _ outcome ran).1
    cases isFirst : outcome.entities with
    | nil =>
        rw [answerSingle, response, isFirst] at goesOn
        cases goesOn
    | cons entity rest =>
        rw [answerSingle, response, isFirst] at goesOn
        cases goesOn
        have first : outcome.entities.head? = some entity := by
          rw [isFirst]
          rfl
        obtain ⟨_, holds, all⟩ := each _ outcome ran
        refine ⟨holds, [entity], .single ran first, List.forall_mem_singleton.mpr ?_⟩
        exact all entity (List.mem_of_mem_head? first)
  · obtain ⟨_, middle, allowed, goesOn⟩ := Action.perform_bind_eq_ok.mp done
    obtain rfl := checked allowed
    obtain ⟨outcome, last, ran, goesOn⟩ := Action.perform_bind_eq_ok.mp goesOn
    cases goesOn
    obtain ⟨unanswered, holds, all⟩ := each _ outcome ran
    refine ⟨holds, outcome.entities, ?_, all⟩
    rw [answerMany, unanswered]
    exact .many ran

theorem store_of_ran {entity : Entity} {rest : List Entity} {requested : List RelationRequest}
    (allowed : endpoint.storeAllowed = true)
    (ran : (endpoint.runBatch .store request (.given (.list [.object request.body]))).perform
      before = (.ok ⟨entity :: rest, none, requested⟩, after)) :
    (endpoint.store request).perform before =
      (.ok (.envelope (.ofEntity requested entity)), after) := by
  have checked : endpoint.checkStore.perform before = (.ok (), before) := by
    rw [checkStore, if_pos allowed]
    rfl
  exact Action.perform_bind_eq_ok.mpr ⟨(), before, checked,
    Action.perform_bind_eq_ok.mpr ⟨_, after, ran, rfl⟩⟩

end Answers

end Endpoint

end ResourceServer
