import ResourceServer.Proofs.Batch.Proceeding

/-!
# Trashing and restoring

Destroying marks rows as trashed, or removes them where nothing is trashed or removal is forced, and
restoring takes the mark away.  Each of them does so to exactly the rows that are named, lie in the
scopes of the endpoint and are live, trashed or either, and it answers with these rows.  Restoring
what has just been destroyed leads back to the store as it was.
-/

namespace ResourceServer

/-- What a batch that destroys or restores does to a row. -/
inductive Trashing
  | mark
  | remove
  | clear

namespace Trashing

/-- The rows that it is done to: live ones, any, or trashed ones. -/
def scope : Trashing → TrashedScope
  | mark => .without
  | remove => .included
  | clear => .only

/-- The row afterwards, if there is one. -/
def apply (resource : Resource) (now : Moment) (row : Record) : Trashing → Option Record
  | mark => some (row.set resource.deletedAtColumn (.moment now))
  | remove => none
  | clear => some (row.set resource.deletedAtColumn .null)

end Trashing

namespace Endpoint

variable {τ : Type} {endpoint : Endpoint (Memory × τ)} {request : Request} {verb : BatchVerb}
variable {context : BatchContext} {plan : BatchPlan} {memory : Memory} {side : τ}

/-- What is done to rows for a request: they are removed where nothing is trashed or removal is
forced. -/
inductive Asks (endpoint : Endpoint (Memory × τ)) (request : Request) :
    BatchVerb → Trashing → Prop
  | mark (softDeletes : endpoint.resource.softDeletes = true)
      (unforced : request.flag "force" = .ok false) : Asks endpoint request .destroy .mark
  | remove {force : Bool} (flagged : request.flag "force" = .ok force)
      (removes : endpoint.resource.softDeletes = false ∨ force = true) :
      Asks endpoint request .destroy .remove
  | clear (softDeletes : endpoint.resource.softDeletes = true) :
      Asks endpoint request .restore .clear

theorem prepareBatch_asks {input : BatchInput} (trashing : verb = .destroy ∨ verb = .restore)
    (prepared : endpoint.prepareBatch verb request input = .ok (context, plan)) :
    ∃ kind, endpoint.Asks request verb kind ∧ context.targetScope = kind.scope ∧
      ∀ payload row, context.fate endpoint.now payload row =
        kind.apply endpoint.resource endpoint.now row := by
  obtain ⟨checked, isPlan, prepared⟩ := bind_eq_ok.mp prepared
  obtain ⟨parameters, _, prepared⟩ := bind_eq_ok.mp prepared
  obtain ⟨requested, _, prepared⟩ := bind_eq_ok.mp prepared
  obtain rfl | rfl := trashing
  · obtain ⟨force, flagged, prepared⟩ := bind_eq_ok.mp prepared
    cases prepared
    cases trashes : endpoint.resource.softDeletes && !force with
    | false =>
        have removes : endpoint.resource.softDeletes = false ∨ force = true := by
          rwa [Bool.and_eq_false_iff, Bool.not_eq_false'] at trashes
        refine ⟨.remove, .remove flagged removes, ?_, fun payload row => ?_⟩
        · simp [BatchContext.targetScope, BatchContext.trashes, trashes, Trashing.scope]
        · simp [BatchContext.fate, BatchContext.readsBack, BatchContext.trashes, trashes,
            Trashing.apply]
    | true =>
        obtain ⟨softDeletes, unforced⟩ := (Bool.and_eq_true _ _).mp trashes
        rw [Bool.not_eq_true'] at unforced
        subst unforced
        refine ⟨.mark, .mark softDeletes flagged, ?_, fun payload row => ?_⟩
        · simp [BatchContext.targetScope, BatchContext.trashes, softDeletes, Trashing.scope]
        · simp [BatchContext.fate, BatchContext.readsBack, BatchContext.trashes, softDeletes,
            BatchContext.changes, Trashing.apply, Record.merge]
  · cases prepared
    obtain ⟨softDeletes, _⟩ := BatchPlan.ofInput_restore_eq_ok.mp isPlan
    refine ⟨.clear, .clear softDeletes, rfl, fun payload row => rfl⟩

/-- Something was done to exactly the rows that some keys reach, and to nothing else.  The answer has
one entity for each of these rows, in the order of the keys. -/
structure Trashes (endpoint : Endpoint (Memory × τ)) (context : BatchContext) (kind : Trashing)
    (keys : List Value) (before after : Contents) (entities : List Entity) : Prop where
  differs : before.DiffersAt endpoint.resource.name after
  keyed : (after.table endpoint.resource.name).Keyed endpoint.resource.keyName
  rows : after.table endpoint.resource.name =
    (before.table endpoint.resource.name).filterMap fun entry =>
      if endpoint.hits kind.scope keys entry then
        (kind.apply endpoint.resource endpoint.now entry.2).map (Prod.mk entry.1)
      else some entry
  once : (endpoint.reached kind.scope before (Value.distinct keys)).Perm
    ((before.table endpoint.resource.name).filter (endpoint.hits kind.scope keys))
  answers : List.Forall₂ (fun entry entity => context.Answers entry
      (kind.apply endpoint.resource endpoint.now entry.2) entity)
    (endpoint.reached kind.scope before (Value.distinct keys)) entities

theorem runBatch_trashes {raws : List Value} {outcome : BatchOutcome} {after : Memory × τ}
    (trashing : verb = .destroy ∨ verb = .restore)
    (silent : endpoint.binding.hooksFor verb = .silent)
    (grants : endpoint.binding.authorizer.GrantsAll)
    (keyed : (memory.contents.table endpoint.resource.name).Keyed endpoint.resource.keyName)
    (done : (endpoint.runBatch verb request (.given (.list raws))).perform (memory, side) =
      (.ok outcome, after)) :
    ∃ kind keys context contents, endpoint.Asks request verb kind ∧
      raws.mapM endpoint.resource.coerceKey = .ok keys ∧
      endpoint.prepareBatch verb request (.given (.list raws)) =
        .ok (context, .keys (Value.distinct keys)) ∧
      outcome = ⟨outcome.entities, none, context.requested⟩ ∧
      after = ({ memory with contents }, side) ∧
      endpoint.Trashes context kind keys memory.contents contents outcome.entities := by
  have existing : verb ≠ .store := by
    rintro rfl
    obtain isDestroy | isRestore := trashing
    · cases isDestroy
    · cases isRestore
  obtain ⟨context, plan, contents, prepared, isOutcome, rfl, revises⟩ :=
    runBatch_revises silent grants existing keyed done
  obtain ⟨kind, asks, sameScope, sameFate⟩ := prepareBatch_asks trashing prepared
  have checked := (prepareBatch_eq_ok prepared).1
  obtain ⟨keys, converted, areKeys, rfl⟩ : ∃ keys,
      raws.mapM endpoint.resource.coerceKey = .ok keys ∧ (∀ key ∈ keys, key.isKey = true) ∧
        plan = .keys (Value.distinct keys) := by
    have listed : BatchPlan.ofKeys endpoint.resource (.given (.list raws)) = .ok plan := by
      obtain rfl | rfl := trashing
      · exact checked
      · exact (BatchPlan.ofInput_restore_eq_ok.mp checked).2
    obtain ⟨_, keys, isItems, converted, areKeys, rfl⟩ := BatchPlan.ofKeys_eq_ok.mp listed
    cases isItems
    exact ⟨keys, converted, areKeys, rfl⟩
  have sameChange : ∀ entry, endpoint.change context (.keys (Value.distinct keys)) entry =
      kind.apply endpoint.resource endpoint.now entry.2 :=
    fun entry => sameFate _ _
  have planKeys : ∀ key ∈ Value.distinct keys, key.isKey = true :=
    fun key member => areKeys key (Value.mem_of_mem_distinct member)
  refine ⟨kind, keys, context, contents, asks, converted, prepared, isOutcome, rfl,
    revises.differs, revises.keyed, ?_, ?_, ?_⟩
  · rw [revises.rows]
    refine List.filterMap_congr fun entry _ => ?_
    rw [BatchPlan.rowKeys, hits_distinct areKeys, sameScope, sameChange]
  · rw [← hits_distinct areKeys]
    exact reached_perm keyed.toWellFiled planKeys (Value.pairwise_distinct areKeys)
  · have answers := revises.answers
    simp only [sameChange] at answers
    rw [sameScope] at answers
    exact answers

/-! ## Restoring what has been destroyed -/

/-- The rows under some keys hold a column for the mark, and are not marked. -/
def Unmarked (endpoint : Endpoint (Memory × τ)) (keys : List Value) (table : Table) : Prop :=
  ∀ entry ∈ table, entry.1.isIn keys = true →
    Record.get? entry.2 endpoint.resource.deletedAtColumn = some .null ∧ entry.2.names.Nodup

/-- An entry after the rows under some keys were marked. -/
def marked (endpoint : Endpoint (Memory × τ)) (keys : List Value) (entry : Value × Record) :
    Value × Record :=
  if entry.1.isIn keys then
    (entry.1, Record.set entry.2 endpoint.resource.deletedAtColumn (.moment endpoint.now))
  else entry

section Marked

variable {keys : List Value} {table : Table} {entry : Value × Record} {trashed : TrashedScope}

@[simp]
theorem key_marked : (endpoint.marked keys entry).1 = entry.1 := by
  unfold marked
  split
  · rfl
  · rfl

theorem reaches_unscoped (unscoped : endpoint.scopes = []) (row : Record) :
    endpoint.reaches trashed row =
      Contents.inScope { resource := endpoint.resource, trashed } row := by
  rw [reaches, unscoped, List.all_nil, Bool.and_true]

/-- Rows that are not marked are reached among the live ones. -/
theorem Unmarked.hits (unmarked : endpoint.Unmarked keys table) (unscoped : endpoint.scopes = [])
    (isEntry : entry ∈ table) : endpoint.hits .without keys entry = entry.1.isIn keys := by
  rw [Endpoint.hits, reaches_unscoped unscoped]
  cases named : entry.1.isIn keys with
  | false => rfl
  | true =>
      have unset := Record.get_eq_of_get? (unmarked entry isEntry named).1
      simp [Contents.inScope, Resource.isTrashed, unset, Value.isNull]

/-- Rows that have just been marked are reached among the trashed ones. -/
theorem hits_marked (softDeletes : endpoint.resource.softDeletes = true)
    (unscoped : endpoint.scopes = []) :
    endpoint.hits .only keys (endpoint.marked keys entry) = entry.1.isIn keys := by
  rw [Endpoint.hits, reaches_unscoped unscoped, key_marked]
  cases named : entry.1.isIn keys with
  | false => rfl
  | true =>
      simp [marked, named, Contents.inScope, Resource.isTrashed, softDeletes, Record.get_set,
        Value.isNull]

/-- Marking rows and taking the marks away leaves a table as it was. -/
theorem Unmarked.restored (unmarked : endpoint.Unmarked keys table)
    (softDeletes : endpoint.resource.softDeletes = true) (unscoped : endpoint.scopes = []) :
    ((table.map (endpoint.marked keys)).filterMap fun entry =>
      if endpoint.hits .only keys entry then
        (Trashing.clear.apply endpoint.resource endpoint.now entry.2).map (Prod.mk entry.1)
      else some entry) = table := by
  rw [List.filterMap_map]
  refine (List.filterMap_congr fun entry isEntry => ?_).trans List.filterMap_some
  rw [Function.comp_apply, hits_marked softDeletes unscoped]
  cases named : entry.1.isIn keys with
  | false => simp [marked, named]
  | true =>
      obtain ⟨held, distinct⟩ := unmarked entry isEntry named
      simp only [marked, named, Trashing.apply, if_true, Option.map_some]
      rw [Record.set_set, Record.set_self distinct held]

end Marked

section Inverse

variable {keys : List Value} {before after : Contents} {entities : List Entity}

/-- Where the rows under some keys are not marked, marking those that are live marks all of them. -/
theorem Trashes.rows_marked (trashes : endpoint.Trashes context .mark keys before after entities)
    (unmarked : endpoint.Unmarked keys (before.table endpoint.resource.name))
    (unscoped : endpoint.scopes = []) :
    after.table endpoint.resource.name =
      (before.table endpoint.resource.name).map (endpoint.marked keys) := by
  rw [trashes.rows, ← List.filterMap_eq_map]
  refine List.filterMap_congr fun entry isEntry => ?_
  rw [Trashing.scope, unmarked.hits unscoped isEntry, Function.comp_apply, marked]
  split
  · rfl
  · rfl

theorem Trashes.restored {last : Contents} {others : List Entity} {again : BatchContext}
    (destroys : endpoint.Trashes context .mark keys before after entities)
    (restores : endpoint.Trashes again .clear keys after last others)
    (softDeletes : endpoint.resource.softDeletes = true)
    (unmarked : endpoint.Unmarked keys (before.table endpoint.resource.name))
    (unscoped : endpoint.scopes = []) : last = before := by
  have differs : before.DiffersAt endpoint.resource.name last :=
    IsTrans.trans _ _ _ destroys.differs restores.differs
  refine differs.eq_of_table ?_
  rw [restores.rows, destroys.rows_marked unmarked unscoped]
  exact unmarked.restored softDeletes unscoped

end Inverse

/-- A request that can be read, for no relations and no forced removal. -/
structure AsksPlainly (endpoint : Endpoint (Memory × τ)) (request : Request) : Prop where
  read : ∃ parameters, endpoint.readParameters request.parameters = .ok parameters
  unrelated : endpoint.readRelations request = .ok []
  unforced : request.flag "force" = .ok false

/-- How a list of raw keys is prepared for a plain request, where rows can be trashed. -/
theorem prepareBatch_plainly {raws keys : List Value}
    (trashing : verb = .destroy ∨ verb = .restore) (asks : endpoint.AsksPlainly request)
    (checked : endpoint.registry.Checked endpoint.resource)
    (softDeletes : endpoint.resource.softDeletes = true)
    (converted : raws.mapM endpoint.resource.coerceKey = .ok keys)
    (areKeys : ∀ key ∈ keys, key.isKey = true) :
    ∃ context, endpoint.prepareBatch verb request (.given (.list raws)) =
        .ok (context, .keys (Value.distinct keys)) ∧ context.resource = endpoint.resource ∧
      context.verb = verb ∧ context.trashes = true ∧ endpoint.ReadsBack context := by
  obtain ⟨⟨parameters, read⟩, unrelated, unforced⟩ := asks
  have listed : BatchPlan.ofKeys endpoint.resource (.given (.list raws)) =
      .ok (.keys (Value.distinct keys)) :=
    BatchPlan.ofKeys_eq_ok.mpr ⟨raws, keys, rfl, converted, areKeys, rfl⟩
  have planned : BatchPlan.ofInput endpoint.binding verb (.given (.list raws)) =
      .ok (.keys (Value.distinct keys)) := by
    obtain rfl | rfl := trashing
    · exact listed
    · exact BatchPlan.ofInput_restore_eq_ok.mpr ⟨softDeletes, listed⟩
  let context : BatchContext :=
    { verb, resource := endpoint.resource, request, parameters, requested := [], force := false,
      scopes := endpoint.scopes, attributes := endpoint.attributes }
  have prepared : endpoint.prepareBatch verb request (.given (.list raws)) =
      .ok (context, .keys (Value.distinct keys)) := by
    refine bind_eq_ok.mpr ⟨_, planned, bind_eq_ok.mpr ⟨parameters, read, ?_⟩⟩
    refine bind_eq_ok.mpr ⟨[], unrelated, ?_⟩
    obtain rfl | rfl := trashing
    · exact bind_eq_ok.mpr ⟨false, unforced, rfl⟩
    · rfl
  have trashes : context.trashes = true := by
    rw [BatchContext.trashes, softDeletes]
    rfl
  have keeps : context.readsBack = true := by
    rw [BatchContext.readsBack, trashes, Bool.not_true, Bool.and_false]
    rfl
  have declared := (QueryParameters.ofRequest_names read).2
  exact ⟨context, prepared, rfl, rfl, trashes, readsBack_bare checked keeps rfl declared⟩

/-- The keys of the named rows have a common order, and none of these rows repeats unique values. -/
structure Orderly (endpoint : Endpoint (Memory × τ)) (keys : List Value) (table : Table) : Prop where
  sortable : (table.filter fun entry => entry.1.isIn keys).Pairwise
    fun left right => left.1.isSortableWith right.1 = true
  unique : ∀ entry ∈ table, entry.1.isIn keys = true →
    Contents.checkUnique endpoint.resource table entry.1 entry.2 = .ok ()

section Orderly

variable {keys : List Value} {table : Table}

/-- Unique values stay apart when the column for the mark is not among the unique ones. -/
theorem Orderly.marked (orderly : endpoint.Orderly keys table)
    (free : ∀ columns, endpoint.resource.model.DemandsUnique columns →
      endpoint.resource.deletedAtColumn ∉ columns) :
    endpoint.Orderly keys (table.map (endpoint.marked keys)) := by
  have keeps : ∀ entry, endpoint.resource.KeepsUnique entry.2 (endpoint.marked keys entry).2 := by
    intro entry columns demands name member
    unfold Endpoint.marked
    split
    · refine (Record.get_set _ _ _ _).trans (if_neg ?_)
      rintro rfl
      exact free columns demands member
    · rfl
  refine ⟨?_, List.forall_mem_map.mpr fun entry isEntry named => ?_⟩
  · rw [List.filter_map, List.pairwise_map]
    simp only [Function.comp_def, key_marked]
    exact orderly.sortable
  · rw [key_marked] at named ⊢
    refine Contents.checkUnique_congr ?_ (keeps entry) (orderly.unique entry isEntry named)
    rw [Table.AlikeIn, List.forall₂_map_right_iff, List.forall₂_same]
    exact fun other _ => ⟨key_marked, keeps other⟩

/-- Rows that are not marked have their keys in another column than the mark. -/
theorem Unmarked.apart (unmarked : endpoint.Unmarked keys table)
    (keyed : table.Keyed endpoint.resource.keyName)
    (scalars : ∀ key ∈ keys, Filter.isScalar key = true) {entry : Value × Record}
    (isEntry : entry ∈ table) (named : entry.1.isIn keys = true) :
    endpoint.resource.keyName ≠ endpoint.resource.deletedAtColumn := by
  intro same
  obtain ⟨key, isKey, meant⟩ := List.any_eq_true.mp named
  have unset := Record.get_eq_of_get? (unmarked entry isEntry named).1
  rw [← same, keyed.filed entry isEntry] at unset
  have scalar := Value.isScalar_of_coincides (scalars key isKey) meant
  rw [unset] at scalar
  cases scalar

/-- The mark can be set and cleared on a row that is named. -/
theorem Orderly.admits (orderly : endpoint.Orderly keys table) {context : BatchContext}
    (trashing : verb = .destroy ∨ verb = .restore) (isVerb : context.verb = verb)
    (isResource : context.resource = endpoint.resource)
    (keyed : table.Keyed endpoint.resource.keyName) {entry : Value × Record}
    (isEntry : entry ∈ table) (named : entry.1.isIn keys = true)
    (apart : endpoint.resource.keyName ≠ endpoint.resource.deletedAtColumn)
    (free : ∀ columns, endpoint.resource.model.DemandsUnique columns →
      endpoint.resource.deletedAtColumn ∉ columns) :
    Admits context endpoint.now [] table entry := by
  -- What is written is a mark, or that there is none.
  obtain ⟨mark, changes, live⟩ : ∃ mark,
      context.changes endpoint.now [] entry.2 = [(endpoint.resource.deletedAtColumn, mark)] ∧
        Contents.inScope { resource := context.resource, trashed := context.freshScope }
          (Record.set entry.2 endpoint.resource.deletedAtColumn mark) = true := by
    unfold BatchContext.changes BatchContext.freshScope
    rw [isVerb, isResource]
    obtain rfl | rfl := trashing
    · refine ⟨_, rfl, ?_⟩
      simp [Contents.inScope]
    · refine ⟨_, rfl, ?_⟩
      simp [Contents.inScope, Resource.isTrashed, Record.get_set, Value.isNull]
  have written : Record.merge entry.2 (context.changes endpoint.now [] entry.2) =
      Record.set entry.2 endpoint.resource.deletedAtColumn mark := by
    rw [changes]
    rfl
  refine ⟨?_, ?_, ?_, ?_⟩
  · rw [written, isResource]
    exact (Record.get_set _ _ _ _).trans ((if_neg apart).trans (keyed.filed entry isEntry))
  · intro columns demands name member
    rw [isResource] at demands
    rw [written]
    refine (Record.get_set _ _ _ _).trans (if_neg ?_)
    rintro rfl
    exact free columns demands member
  · rw [isResource]
    exact .inr (orderly.unique entry isEntry named)
  · rw [written]
    exact live

/-- A plain batch that destroys or restores goes through. -/
theorem runBatch_trashes_goes {raws : List Value}
    (trashing : verb = .destroy ∨ verb = .restore)
    (silent : endpoint.binding.hooksFor verb = .silent)
    (grants : endpoint.binding.authorizer.GrantsAll) (noneOpen : memory.snapshot = none)
    (asks : endpoint.AsksPlainly request)
    (checked : endpoint.registry.Checked endpoint.resource)
    (softDeletes : endpoint.resource.softDeletes = true) (unscoped : endpoint.scopes = [])
    (keyed : (memory.contents.table endpoint.resource.name).Keyed endpoint.resource.keyName)
    (converted : raws.mapM endpoint.resource.coerceKey = .ok keys)
    (scalars : ∀ key ∈ keys, Filter.isScalar key = true)
    (orderly : endpoint.Orderly keys (memory.contents.table endpoint.resource.name))
    (apart : ∀ entry ∈ memory.contents.table endpoint.resource.name, entry.1.isIn keys = true →
      endpoint.resource.keyName ≠ endpoint.resource.deletedAtColumn)
    (free : ∀ columns, endpoint.resource.model.DemandsUnique columns →
      endpoint.resource.deletedAtColumn ∉ columns) :
    ∃ outcome contents, (endpoint.runBatch verb request (.given (.list raws))).perform
      (memory, side) = (.ok outcome, ({ memory with contents }, side)) := by
  have existing : verb ≠ .store := by
    rintro rfl
    obtain isDestroy | isRestore := trashing
    · cases isDestroy
    · cases isRestore
  have areKeys : ∀ key ∈ keys, key.isKey = true :=
    fun key isKey => Value.isKey_of_isScalar (scalars key isKey)
  obtain ⟨context, prepared, isResource, isVerb, trashes, readsBack⟩ :=
    prepareBatch_plainly trashing asks checked softDeletes converted areKeys
  have planKeys : ∀ key ∈ Value.distinct keys, Filter.isScalar key = true :=
    fun key member => scalars key (Value.mem_of_mem_distinct member)
  refine runBatch_goes silent grants existing noneOpen prepared checked.key keyed readsBack planKeys
    (fun entry _ => evaluates_of_scopes (by rw [unscoped]; exact nofun)) ?_
    fun entry isReached => ?_
  · have both : (memory.contents.table endpoint.resource.name).filter
        (endpoint.hits context.targetScope keys) =
          ((memory.contents.table endpoint.resource.name).filter
            fun entry => entry.1.isIn keys).filter
              fun entry => endpoint.reaches context.targetScope entry.2 := by
      rw [List.filter_filter]
      exact List.filter_congr fun entry _ => Bool.and_comm _ _
    rw [BatchPlan.rowKeys, hits_distinct areKeys, both]
    exact orderly.sortable.filter _
  · obtain ⟨isEntry, _, key, isKey, meant⟩ := mem_reached isReached
    have named : entry.1.isIn keys = true :=
      List.any_eq_true.mpr ⟨key, Value.mem_of_mem_distinct isKey, meant⟩
    exact orderly.admits trashing isVerb isResource keyed isEntry named
      (apart entry isEntry named) free

end Orderly

/-- Destroying and restoring affect exactly the rows that are named, in scope and live or trashed, as
the case may be, and answer with one entity for each of them.  Where rows can be trashed, restoring
what has just been destroyed leaves the store as it was before. -/
theorem destroy_restore
    (silent : ∀ verb, verb = .destroy ∨ verb = .restore →
      endpoint.binding.hooksFor verb = .silent)
    (grants : endpoint.binding.authorizer.GrantsAll)
    (keyed : (memory.contents.table endpoint.resource.name).Keyed endpoint.resource.keyName) :
    (∀ verb request raws outcome after, verb = .destroy ∨ verb = .restore →
      (endpoint.runBatch verb request (.given (.list raws))).perform (memory, side) =
        (.ok outcome, after) →
      ∃ kind keys context contents, endpoint.Asks request verb kind ∧
        raws.mapM endpoint.resource.coerceKey = .ok keys ∧
        endpoint.prepareBatch verb request (.given (.list raws)) =
          .ok (context, .keys (Value.distinct keys)) ∧
        outcome = ⟨outcome.entities, none, context.requested⟩ ∧
        after = ({ memory with contents }, side) ∧
        endpoint.Trashes context kind keys memory.contents contents outcome.entities) ∧
    ∀ destroying restoring raws keys, endpoint.resource.softDeletes = true →
      endpoint.scopes = [] → raws.mapM endpoint.resource.coerceKey = .ok keys →
      endpoint.Unmarked keys (memory.contents.table endpoint.resource.name) →
      (∀ first middle second last, destroying.flag "force" = .ok false →
        (endpoint.runBatch .destroy destroying (.given (.list raws))).perform (memory, side) =
          (.ok first, middle) →
        (endpoint.runBatch .restore restoring (.given (.list raws))).perform middle =
          (.ok second, last) → last = (memory, side)) ∧
      (endpoint.registry.validate = .ok () → endpoint.resource ∈ endpoint.registry.resources →
        memory.snapshot = none → endpoint.AsksPlainly destroying →
        endpoint.AsksPlainly restoring → (∀ key ∈ keys, Filter.isScalar key = true) →
        endpoint.Orderly keys (memory.contents.table endpoint.resource.name) →
        (∀ columns, endpoint.resource.model.DemandsUnique columns →
          endpoint.resource.deletedAtColumn ∉ columns) →
        ∃ first middle second,
          (endpoint.runBatch .destroy destroying (.given (.list raws))).perform (memory, side) =
            (.ok first, middle) ∧
          (endpoint.runBatch .restore restoring (.given (.list raws))).perform middle =
            (.ok second, (memory, side))) := by
  refine ⟨fun verb request raws outcome after trashing done =>
    runBatch_trashes trashing (silent verb trashing) grants keyed done, ?_⟩
  intro destroying restoring raws keys softDeletes unscoped converted unmarked
  -- What a run that destroys without force has done.
  have destroys : ∀ first middle, destroying.flag "force" = .ok false →
      (endpoint.runBatch .destroy destroying (.given (.list raws))).perform (memory, side) =
        (.ok first, middle) →
      ∃ context contents, middle = ({ memory with contents }, side) ∧
        endpoint.Trashes context .mark keys memory.contents contents first.entities := by
    intro first middle unforced done
    obtain ⟨kind, named, context, contents, asks, same, _, _, rfl, trashes⟩ :=
      runBatch_trashes (.inl rfl) (silent _ (.inl rfl)) grants keyed done
    cases converted.symm.trans same
    cases asks with
    | mark => exact ⟨context, contents, rfl, trashes⟩
    | remove flagged removes =>
        cases unforced.symm.trans flagged
        rw [softDeletes] at removes
        simp at removes
  have restores : ∀ first middle second last, destroying.flag "force" = .ok false →
      (endpoint.runBatch .destroy destroying (.given (.list raws))).perform (memory, side) =
        (.ok first, middle) →
      (endpoint.runBatch .restore restoring (.given (.list raws))).perform middle =
        (.ok second, last) → last = (memory, side) := by
    intro first middle second last unforced done again
    obtain ⟨context, contents, rfl, trashes⟩ := destroys first middle unforced done
    obtain ⟨kind, named, other, restored, asks, same, _, _, rfl, clears⟩ :=
      runBatch_trashes (.inr rfl) (silent _ (.inr rfl)) grants trashes.keyed again
    cases converted.symm.trans same
    cases asks
    rw [trashes.restored clears softDeletes unmarked unscoped]
  refine ⟨restores, ?_⟩
  intro valid registered noneOpen asks asksAgain scalars orderly free
  have checked := Registry.checked valid registered
  have apart : ∀ entry ∈ memory.contents.table endpoint.resource.name,
      entry.1.isIn keys = true → endpoint.resource.keyName ≠ endpoint.resource.deletedAtColumn :=
    fun entry isEntry named => unmarked.apart keyed scalars isEntry named
  obtain ⟨first, contents, done⟩ : ∃ outcome contents,
      (endpoint.runBatch .destroy destroying (.given (.list raws))).perform (memory, side) =
        (.ok outcome, ({ memory with contents }, side)) :=
    runBatch_trashes_goes (.inl rfl) (silent _ (.inl rfl)) grants noneOpen asks checked softDeletes
      unscoped keyed converted scalars orderly apart free
  obtain ⟨context, _, same, trashes⟩ := destroys first _ asks.unforced done
  cases same
  have marked := trashes.rows_marked unmarked unscoped
  have apartAfter : ∀ entry ∈ contents.table endpoint.resource.name, entry.1.isIn keys = true →
      endpoint.resource.keyName ≠ endpoint.resource.deletedAtColumn := by
    rw [marked, List.forall_mem_map]
    intro entry isEntry named
    rw [key_marked] at named
    exact apart entry isEntry named
  have orderlyAfter : endpoint.Orderly keys (contents.table endpoint.resource.name) := by
    rw [marked]
    exact orderly.marked free
  obtain ⟨second, last, again⟩ : ∃ outcome last,
      (endpoint.runBatch .restore restoring (.given (.list raws))).perform
        ({ memory with contents }, side) =
          (.ok outcome, ({ memory with contents := last }, side)) :=
    runBatch_trashes_goes (.inr rfl) (silent _ (.inr rfl)) grants noneOpen asksAgain checked
      softDeletes unscoped trashes.keyed converted scalars orderlyAfter apartAfter free
  have isBefore := restores first _ second _ asks.unforced done again
  rw [isBefore] at again
  exact ⟨first, _, second, done, again⟩

/-- Books, which can be trashed. -/
def libraryBooks : Endpoint (Memory × Unit) where
  registry := ⟨Samples.Library.resources⟩
  now := Samples.Library.trashedAt
  binding := { resource := Samples.Library.books }

theorem book_unmarkedSets : ∀ columns, Samples.Library.book.DemandsUnique columns →
    "removed_on" ∉ columns := by
  intro columns demands
  have isSet := Model.mem_uniqueColumnSets.mpr demands
  have onlyIsbn : Samples.Library.book.uniqueColumnSets = [["isbn"]] := by
    with_unfolding_all rfl
  rw [onlyIsbn, List.mem_singleton] at isSet
  rw [isSet]
  decide

/-- A book that is not trashed. -/
def liveBook (number : Int) (isbn : Value) : Value × Record :=
  (.int number, Samples.Library.bookRow number isbn .null .null (.int 1) .null ++
    [("removed_on", .null)])

/-- Two books, and a third one that is trashed. -/
def threeBooks : Memory where
  contents := { tables := [("books", [liveBook 10 (.text "x-1"), liveBook 11 (.text "x-2"),
    (.int 13, Samples.Library.bookRow 13 .null .null .null (.int 1) .null ++
      [("removed_on", .moment Samples.Library.trashedAt)])])] }

/-- Two books and one that is missing are named, one of them twice. -/
def namedBooks : List Value := [.text "11", .int 10, .int 12, .int 11]

set_option maxRecDepth 10000 in
theorem destroy_restore_books :
    ∃ first middle second,
      (libraryBooks.runBatch .destroy {} (.given (.list namedBooks))).perform (threeBooks, ()) =
        (.ok first, middle) ∧
      (libraryBooks.runBatch .restore {} (.given (.list namedBooks))).perform middle =
        (.ok second, (threeBooks, ())) ∧
      ∃ context contents, middle = ({ threeBooks with contents }, ()) ∧
        libraryBooks.Trashes context .mark [.int 11, .int 10, .int 12, .int 11]
          threeBooks.contents contents first.entities := by
  have keyed : Table.Keyed "id" (threeBooks.contents.table "books") := by
    refine ⟨⟨?_, by decide +kernel⟩, by decide +kernel⟩
    intro entry member
    simp [threeBooks, liveBook, Contents.table] at member
    rcases member with rfl | rfl | rfl
    · rfl
    · rfl
    · rfl
  have converted : namedBooks.mapM Samples.Library.books.coerceKey =
      .ok [.int 11, .int 10, .int 12, .int 11] := by
    with_unfolding_all rfl
  have unmarked : libraryBooks.Unmarked [.int 11, .int 10, .int 12, .int 11]
      (threeBooks.contents.table "books") := by
    intro entry member named
    simp [threeBooks, liveBook, Contents.table] at member
    rcases member with rfl | rfl | rfl
    · exact ⟨rfl, by decide +kernel⟩
    · exact ⟨rfl, by decide +kernel⟩
    · exact absurd named (by decide +kernel)
  have unrelated : libraryBooks.readRelations {} = .ok [] := by
    with_unfolding_all rfl
  have asks : libraryBooks.AsksPlainly {} := ⟨⟨_, rfl⟩, unrelated, rfl⟩
  have orderly : libraryBooks.Orderly [.int 11, .int 10, .int 12, .int 11]
      (threeBooks.contents.table "books") := by
    have unrepeated : ∀ entry ∈ threeBooks.contents.table "books", Contents.repeated?
        Samples.Library.books (threeBooks.contents.table "books") entry.1 entry.2 = none := by
      decide +kernel
    exact ⟨by decide +kernel, fun entry member _ =>
      Contents.checkUnique_eq_ok.mpr (unrepeated entry member)⟩
  have valid : libraryBooks.registry.validate = .ok () := by
    with_unfolding_all rfl
  have registered : libraryBooks.resource ∈ libraryBooks.registry.resources :=
    List.mem_cons_of_mem _ List.mem_cons_self
  obtain ⟨affects, inverse⟩ : _ ∧ _ :=
    destroy_restore (fun verb _ => by cases verb <;> rfl)
      (show libraryBooks.binding.authorizer.GrantsAll from Authorizer.allowAll_grantsAll)
      (show (threeBooks.contents.table libraryBooks.resource.name).Keyed _ from keyed)
  obtain ⟨first, middle, second, done, again⟩ :=
    (inverse {} {} namedBooks _ rfl rfl converted unmarked).2 valid registered rfl asks asks
      (by decide) orderly book_unmarkedSets
  obtain ⟨kind, keys, context, contents, named, same, _, _, isMiddle, trashes⟩ :=
    affects .destroy {} namedBooks first middle (.inl rfl) done
  cases converted.symm.trans same
  cases named with
  | mark => exact ⟨first, middle, second, done, again, context, contents, isMiddle, trashes⟩
  | remove flagged removes =>
      cases flagged
      obtain isHard | isForced := removes
      · cases isHard
      · cases isForced

/-! ## Where a batch does less, or does not come to an outcome -/

/-- A batch is asked, without scopes and force, to destroy rows that are live or missing, no unique
column holds the mark, and yet the batch fails. -/
def Refuses (endpoint : Endpoint (Memory × Unit)) (request : Request) (memory : Memory)
    (raws : List Value) : Prop :=
  endpoint.resource.softDeletes = true ∧ endpoint.scopes = [] ∧
    endpoint.binding.hooksFor .destroy = .silent ∧ endpoint.binding.authorizer.GrantsAll ∧
    request.flag "force" = .ok false ∧
    (∀ columns, endpoint.resource.model.DemandsUnique columns →
      endpoint.resource.deletedAtColumn ∉ columns) ∧
    (∀ row ∈ (memory.contents.table endpoint.resource.name).rows,
      endpoint.resource.isTrashed row = false) ∧
    ∃ error, (endpoint.runBatch .destroy request (.given (.list raws))).perform (memory, ()) =
      (.error error, (memory, ()))

/-- The endpoint of books, which are found by their title. -/
def titledBooks : Endpoint (Memory × Unit) where
  registry := ⟨Samples.Library.resources⟩
  now := Samples.Library.trashedAt
  binding := { resource := { Samples.Library.books with
    keyName := "title", fillable := some ["title"] } }

/-- A book under a text, and one under a number. -/
def mixedTitles : Memory where
  contents := { tables := [("books", [
    (.text "x", Samples.Library.bookRow 1 .null (.text "x") .null (.int 1) .null),
    (.int 1, Samples.Library.bookRow 2 .null (.int 1) .null (.int 1) .null)])] }

/-- A book with two labels, under a number and under a text. -/
def mixedLabels : Memory where
  contents := { tables := [("books", [liveBook 10 (.text "x-1")]), ("labels", [
    (.int 1, Samples.Library.labelRow 1 "red" (.text "x-1")),
    (.text "a", [("id", .text "a"), ("text", .text "blue"), ("book_isbn", .text "x-1")])])] }

/-- A request for labels. -/
def withLabels : Request where
  query := [("include", .text "labels")]

theorem refuses_of_fails {endpoint : Endpoint (Memory × Unit)} {request : Request}
    {memory : Memory} {raws : List Value} (silent : endpoint.binding.hooksFor .destroy = .silent)
    (grants : endpoint.binding.authorizer.GrantsAll) (softDeletes : endpoint.resource.softDeletes = true)
    (unscoped : endpoint.scopes = []) (unforced : request.flag "force" = .ok false)
    (free : ∀ columns, endpoint.resource.model.DemandsUnique columns →
      endpoint.resource.deletedAtColumn ∉ columns)
    (live : ∀ row ∈ (memory.contents.table endpoint.resource.name).rows,
      endpoint.resource.isTrashed row = false)
    (fails : ((endpoint.runBatch .destroy request (.given (.list raws))).perform
      (memory, ())).1.isOk = false) : endpoint.Refuses request memory raws := by
  refine ⟨softDeletes, unscoped, silent, grants, unforced, free, live, ?_⟩
  cases ran : (endpoint.runBatch .destroy request (.given (.list raws))).perform (memory, ()) with
  | mk result after =>
      rw [ran] at fails
      cases result with
      | ok outcome => cases fails
      | error error =>
          have unchanged := runBatch_eq_error silent grants ran
          exact ⟨error, congrArg (Prod.mk _) unchanged⟩

/-- A batch answers with a row that it was asked to destroy, and the row is still there. -/
theorem renumbered_remains : ∃ outcome after,
    (nodeEndpoint.runBatch .destroy {} (.given (.list [.int 9]))).perform (renumberedNode, ()) =
      (.ok outcome, after) ∧
    (outcome.entities.any fun entity => entity.key.coincides (.int 9)) = true ∧
    ((after.1.contents.table "nodes").rows.any fun row => (row.get "id").coincides (.int 9)) =
      true := by
  have both : (nodeEndpoint.runBatch .destroy {} (.given (.list [.int 9]))).comesTo
      (renumberedNode, ()) (fun outcome after =>
        (outcome.entities.any fun entity => entity.key.coincides (.int 9)) &&
          (after.1.contents.table "nodes").rows.any fun row =>
            (row.get "id").coincides (.int 9)) = true := by
    decide +kernel
  obtain ⟨outcome, after, ran, both⟩ := Action.comesTo_eq_true.mp both
  rw [Bool.and_eq_true] at both
  exact ⟨outcome, after, ran, both.1, both.2⟩

/-- A batch may answer with a row that it has not removed, when the row is filed under another key,
and a batch is refused for keys without a common order, for null, and for what its answer should
show of other rows. -/
theorem destroys_amiss :
    (nodeEndpoint.resource.softDeletes = false ∧ ∃ outcome after,
      (nodeEndpoint.runBatch .destroy {} (.given (.list [.int 9]))).perform (renumberedNode, ()) =
        (.ok outcome, after) ∧
      (outcome.entities.any fun entity => entity.key.coincides (.int 9)) = true ∧
      ((after.1.contents.table "nodes").rows.any fun row =>
        (row.get "id").coincides (.int 9)) = true) ∧
      titledBooks.Refuses {} mixedTitles [.text "x", .int 1] ∧
      titledBooks.Refuses {} {} [.null] ∧
      libraryBooks.Refuses withLabels mixedLabels [.int 10] := by
  refine ⟨⟨rfl, renumbered_remains⟩, ?_, ?_, ?_⟩
  · exact refuses_of_fails rfl Authorizer.allowAll_grantsAll rfl rfl rfl book_unmarkedSets
      (by decide +kernel) (by decide +kernel)
  · exact refuses_of_fails rfl Authorizer.allowAll_grantsAll rfl rfl rfl book_unmarkedSets
      (by decide +kernel) (by decide +kernel)
  · exact refuses_of_fails rfl Authorizer.allowAll_grantsAll rfl rfl rfl book_unmarkedSets
      (by decide +kernel) (by decide +kernel)

end Endpoint

end ResourceServer
