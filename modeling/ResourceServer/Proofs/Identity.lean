import ResourceServer.Proofs.Answering
import ResourceServer.Proofs.Confinement
import ResourceServer.Proofs.Memory.History

/-!
# Identity of rows

Authorizers and hooks change the entities of a batch as they like, and what they leave is what
is written.  The key of an entity is not theirs to change: a batch on existing rows writes under
the keys of the targets it has fetched, and never to the key column, unless that column is where
trashed rows are marked.  This holds wherever the batch ends, so it is said of everything that a
store holds: its rows, and those that its transaction would go back to.
-/

namespace ResourceServer

namespace Contents

/-- Rows change only under allowed keys, and none comes or goes; where nothing is marked in the
key column, rows that are filed under their keys stay so. -/
structure KeepsIdentity (resource : Resource) (unmarked : Prop) (allowed : Value → Bool)
    (before after : Contents) : Prop where
  changesOnly : before.ChangesOnly resource.name allowed after
  keys : (after.table resource.name).map Prod.fst = (before.table resource.name).map Prod.fst
  wellFiled : unmarked → (before.table resource.name).WellFiled resource.keyName →
    (after.table resource.name).WellFiled resource.keyName

/-- Rows are only added, to the table of one name and at its end. -/
structure Extends (name : String) (before after : Contents) : Prop where
  others : ∀ other, other ≠ name → after.table other = before.table other
  rows : before.table name <+: after.table name

variable {resource : Resource} {unmarked : Prop} {allowed : Value → Bool} {name : String}
variable {contents after : Contents}

instance : Std.Refl (KeepsIdentity resource unmarked allowed) where
  refl contents := ⟨Std.Refl.refl contents, rfl, fun _ wellFiled => wellFiled⟩

instance : IsTrans Contents (KeepsIdentity resource unmarked allowed) where
  trans _ _ _ first second := {
    changesOnly := IsTrans.trans _ _ _ first.changesOnly second.changesOnly
    keys := second.keys.trans first.keys
    wellFiled := fun isUnmarked wellFiled =>
      second.wellFiled isUnmarked (first.wellFiled isUnmarked wellFiled) }

instance : Std.Refl (Extends name) := ⟨fun _ => ⟨fun _ _ => rfl, List.prefix_refl _⟩⟩

instance : IsTrans Contents (Extends name) where
  trans _ _ _ first second := {
    others := fun other different =>
      (second.others other different).trans (first.others other different)
    rows := first.rows.trans second.rows }

/-- Replacing the row under a key by one with the same value in the key column. -/
theorem wellFiled_replace {table : Table} {keyName : String} {key : Value} {row changed : Record}
    (wellFiled : table.WellFiled keyName) (isKey : key.isKey = true)
    (found : table.find? key = some row) (unnamed : changed.get keyName = row.get keyName) :
    (table.replace key changed).WellFiled keyName where
  filed := by
    refine List.forall_mem_map.mpr fun entry isEntry => ?_
    split
    · rename_i meant
      -- The row that was found is the one under this entry's key.
      rw [wellFiled.find?_eq isKey isEntry meant] at found
      cases found
      exact unnamed.trans (wellFiled.filed entry isEntry)
    · exact wellFiled.filed entry isEntry
  distinct := by
    have apart : (table.map Prod.fst).Pairwise fun left right =>
        left.coincides right = false ∧ right.coincides left = false :=
      List.pairwise_map.mpr wellFiled.distinct
    rw [← Table.map_fst_replace changed] at apart
    exact List.pairwise_map.mp apart

theorem update_keepsIdentity {key : Value} {changes : Record} {count : Int}
    (permitted : ∀ other : Value, other.coincides key = true → allowed other = true)
    (unnamed : unmarked → changes.has resource.keyName = false)
    (done : contents.update resource key changes = .ok (count, after)) :
    contents.KeepsIdentity resource unmarked allowed after := by
  refine ⟨update_changesOnly permitted done, ?_, ?_⟩
  · obtain rfl | ⟨row, _, _, _, rfl⟩ := update_eq_ok done
    · rfl
    · rw [table_withTable, Table.map_fst_replace]
  · intro isUnmarked wellFiled
    obtain rfl | ⟨row, found, isKey, _, rfl⟩ := update_eq_ok done
    · exact wellFiled
    · rw [table_withTable]
      exact wellFiled_replace wellFiled isKey found (Record.get_merge_other (unnamed isUnmarked))

theorem insert_extends {key : Value} {values : Record}
    (done : contents.insert resource values = .ok (key, after)) :
    contents.Extends resource.name after := by
  obtain ⟨row, appended⟩ := insert_appends done
  obtain ⟨_, _, _, _, rfl⟩ := insert_eq_ok done
  refine ⟨fun other different => ?_, ?_⟩
  · rw [table_withKey, table_withTable_other different]
  · rw [appended]
    exact List.prefix_append _ _

end Contents

namespace Memory

variable {τ : Type} {change : Contents → Contents → Prop}

/-- What a store holds: its rows, and those that its transaction would go back to. -/
def Holds (memory : Memory) (contents : Contents) : Prop :=
  contents = memory.contents ∨ memory.snapshot = some contents

/-- Whatever a store holds afterwards comes by changes from what it held before. -/
def Descends (change : Contents → Contents → Prop) (before after : Memory × τ) : Prop :=
  ∀ later, after.1.Holds later → ∃ earlier, before.1.Holds earlier ∧ change earlier later

/-- A call that writes no rows.  It may open and close transactions, and even take the writes of
one back. -/
abbrev WritesNothing : (before after : Memory × τ) → Prop := Descends (· = ·)

instance [Std.Refl change] : Std.Refl (@Descends τ change) :=
  ⟨fun _ contents held => ⟨contents, held, Std.Refl.refl contents⟩⟩

instance [IsTrans Contents change] : IsTrans (Memory × τ) (Descends change) where
  trans _ _ _ first second last held := by
    obtain ⟨middle, middleHeld, later⟩ := second last held
    obtain ⟨start, startHeld, earlier⟩ := first middle middleHeld
    exact ⟨start, startHeld, IsTrans.trans _ _ _ earlier later⟩

theorem WritesNothing.descends [Std.Refl change] {before after : Memory × τ}
    (quiet : WritesNothing before after) : Descends change before after := by
  intro later held
  obtain ⟨earlier, earlierHeld, rfl⟩ := quiet later held
  exact ⟨earlier, earlierHeld, Std.Refl.refl earlier⟩

theorem holds_closed {memory : Memory} {contents : Contents} :
    memory.closed.Holds contents ↔ contents = memory.contents :=
  or_iff_left nofun

theorem holds_opened {memory : Memory} {contents : Contents} :
    memory.opened.Holds contents ↔ contents = memory.contents := by
  change contents = memory.contents ∨ some memory.contents = some contents ↔ _
  rw [Option.some.injEq, eq_comm (a := memory.contents), or_self]

theorem writesNothing_of_subset {before after : Memory × τ}
    (fewer : ∀ contents, after.1.Holds contents → before.1.Holds contents) :
    WritesNothing before after :=
  fun contents held => ⟨contents, fewer contents held, rfl⟩

theorem begin_writesNothing :
    (Store.begin : Action (Memory × τ) Unit).Ensures WritesNothing fun _ => True := by
  rintro ⟨memory, side⟩
  refine ⟨?_, fun _ _ => trivial⟩
  cases isOpen : memory.snapshot with
  | some snapshot =>
      rw [perform_begin_again isOpen]
      exact Std.Refl.refl _
  | none =>
      rw [perform_begin isOpen]
      exact writesNothing_of_subset fun contents held => .inl (holds_opened.mp held)

theorem close_writesNothing (memory : Memory) (side : τ) :
    WritesNothing (memory, side) ((close.onFirst : Action (Memory × τ) Unit).perform
      (memory, side)).2 := by
  rw [Action.perform_onFirst]
  refine writesNothing_of_subset fun contents held => ?_
  cases isOpen : memory.snapshot with
  | some snapshot =>
      simp only [Action.perform, close, isOpen] at held
      exact .inl (holds_closed.mp held)
  | none =>
      simp only [Action.perform, close, isOpen] at held
      exact held

theorem commit_writesNothing :
    (Store.commit : Action (Memory × τ) Unit).Ensures WritesNothing fun _ => True :=
  fun (memory, side) => ⟨close_writesNothing memory side, fun _ _ => trivial⟩

theorem rollback_writesNothing :
    (Store.rollback : Action (Memory × τ) Unit).Ensures WritesNothing fun _ => True := by
  rintro ⟨memory, side⟩
  refine ⟨?_, fun _ _ => trivial⟩
  have back : WritesNothing (memory, side)
      ({ memory with contents := memory.snapshot.getD memory.contents }, side) := by
    refine writesNothing_of_subset ?_
    rintro contents (rfl | isOpen)
    · cases isOpen : memory.snapshot with
      | some snapshot => exact .inr isOpen
      | none => exact .inl rfl
    · exact .inr isOpen
  exact IsTrans.trans _ _ _ back (close_writesNothing _ side)

/-- A write leaves what a transaction would go back to as it is. -/
theorem write_descends {α : Type} [Std.Refl change]
    (write : Contents → Except Error (α × Contents))
    (changes : ∀ before result after, write before = .ok (result, after) → change before after) :
    ((Memory.write write).onFirst : Action (Memory × τ) α).Ensures (Descends change)
      fun _ => True := by
  refine write_ensures write fun memory side result after done => ?_
  rintro later (rfl | isOpen)
  · exact ⟨memory.contents, .inl rfl, changes _ _ _ done⟩
  · exact ⟨later, .inr isOpen, Std.Refl.refl later⟩

end Memory

/-- Opening and closing its transaction, a batch writes nothing beside what it writes inside. -/
theorem BatchSteps.run_descends {τ : Type} {change : Contents → Contents → Prop}
    [Std.Refl change] [IsTrans Contents change] {steps : BatchSteps (Memory × τ)}
    {context : BatchContext} {plan : BatchPlan} {memory : Memory} {side : τ}
    (inside : Memory.Descends change (memory.opened, side)
      ((steps.execute context plan).perform (memory.opened, side)).2) :
    change memory.contents ((steps.run context plan).perform (memory, side)).2.1.contents := by
  rw [perform_run]
  cases isOpen : memory.snapshot with
  | some snapshot =>
      rw [Memory.perform_begin_again isOpen]
      exact Std.Refl.refl memory.contents
  | none =>
      rw [Memory.perform_begin isOpen]
      have ends : ∀ after, Memory.WritesNothing
          ((steps.execute context plan).perform (memory.opened, side)).2 after →
          change memory.contents after.1.contents := by
        intro after quiet
        have descends : Memory.Descends change (memory.opened, side) after :=
          IsTrans.trans _ _ _ inside quiet.descends
        obtain ⟨contents, held, changed⟩ := descends after.1.contents (.inl rfl)
        rwa [Memory.holds_opened.mp held] at changed
      dsimp only
      revert ends
      generalize (steps.execute context plan).perform (memory.opened, side) = executed
      obtain ⟨result, after⟩ := executed
      intro ends
      cases result with
      | error error => exact ends _ (Memory.rollback_writesNothing after).1
      | ok outcome => exact ends _ (Memory.commit_writesNothing after).1

namespace Endpoint

open Memory (Descends WritesNothing)

variable {τ : Type} {endpoint : Endpoint (Memory × τ)} {verb : BatchVerb} {request : Request}
variable {input : BatchInput} {context : BatchContext} {plan : BatchPlan}
variable {memory : Memory} {side : τ} {unmarked : Prop} {allowed : Value → Bool}

/-- A batch of the verb is on existing rows and keeps them: a request to destroy trashes. -/
structure KeepsRows (endpoint : Endpoint (Memory × τ)) (verb : BatchVerb) (request : Request) :
    Prop where
  existing : verb ≠ .store
  trashes : verb = .destroy →
    endpoint.resource.softDeletes = true ∧ request.flag "force" ≠ .ok true

/-- The targets that a batch fetches once the hooks before it have passed; none when they do not
pass, or when the targets cannot be found. -/
def fetched (endpoint : Endpoint (Memory × τ)) (verb : BatchVerb) (request : Request)
    (input : BatchInput) (memory : Memory) (side : τ) : List BatchTarget :=
  match endpoint.prepareBatch verb request input with
  | .error _ => []
  | .ok (context, plan) =>
      match (endpoint.steps (endpoint.binding.hooksFor verb)).openedTargets context plan
          (memory.opened, side) with
      | .error _ => []
      | .ok targets => targets

theorem KeepsRows.trashes_of_prepared (keeps : endpoint.KeepsRows verb request)
    (prepared : endpoint.prepareBatch verb request input = .ok (context, plan))
    (destroys : verb = .destroy) : context.trashes = true := by
  obtain ⟨softDeletes, unforced⟩ := keeps.trashes destroys
  subst destroys
  obtain ⟨_, _, prepared⟩ := bind_eq_ok.mp prepared
  obtain ⟨_, _, prepared⟩ := bind_eq_ok.mp prepared
  obtain ⟨_, _, prepared⟩ := bind_eq_ok.mp prepared
  obtain ⟨force, flagged, prepared⟩ := bind_eq_ok.mp prepared
  cases prepared
  cases force with
  | true => exact absurd flagged unforced
  | false => exact (congrArg (· && true) softDeletes)

/-- The columns that an update writes are without the key column. -/
theorem changedValues_unnamed (target : BatchTarget) (resource : Resource) (entity : Entity) :
    (target.changedValues resource entity).has resource.keyName = false := by
  rw [Record.has, List.any_eq_false]
  intro change isChange isKey
  have written := (List.mem_filter.mp isChange).2
  rw [beq_iff_eq.mp isKey] at written
  simp at written

/-- A write to an existing row is under the key of its entity. -/
theorem mutate_keepsIdentity (existing : context.verb ≠ .store)
    (trashes : context.verb = .destroy → context.trashes = true)
    (isUnmarked : unmarked → context.verb = .update ∨ context.resource.marksKey = false)
    {target : BatchTarget} {entity : Entity}
    (permitted : ∀ other : Value, other.coincides entity.key = true → allowed other = true) :
    (endpoint.mutate context target entity).Ensures
      (Descends (Contents.KeepsIdentity context.resource unmarked allowed)) fun _ => True := by
  have writes : ∀ changes : Record,
      (unmarked → changes.has context.resource.keyName = false) →
      (Store.update context.resource entity.key changes : Action (Memory × τ) _).Ensures
        (Descends (Contents.KeepsIdentity context.resource unmarked allowed)) fun _ => True :=
    fun changes unnamed => Memory.write_descends _ fun _ _ _ done =>
      Contents.update_keepsIdentity permitted unnamed done
  have marks : ∀ mark, context.verb ≠ .update → context.resource.softDeletes = true →
      (Store.update context.resource entity.key [(context.resource.deletedAtColumn, mark)] :
        Action (Memory × τ) _).Ensures
          (Descends (Contents.KeepsIdentity context.resource unmarked allowed)) fun _ => True :=
    fun mark notUpdate softDeletes => writes _ fun holds =>
      Memory.unnamed_mark softDeletes mark ((isUnmarked holds).resolve_left notUpdate)
  unfold mutate
  cases isVerb : context.verb with
  | store => exact absurd isVerb existing
  | update =>
      exact .bind (writes _ fun _ => changedValues_unnamed target _ entity) fun _ _ => .pure trivial
  | destroy =>
      dsimp only
      rw [if_pos (trashes isVerb)]
      unfold Store.softDelete
      split
      · exact .bind (marks _ (by simp [isVerb]) ‹_›) fun _ _ => .pure trivial
      · exact .throw _
  | restore =>
      dsimp only
      unfold Store.restore
      split
      · exact .bind (marks _ (by simp [isVerb]) ‹_›) fun _ _ => .pure trivial
      · exact .throw _

/-- The hooks before a batch leave it with the rows that it was started on. -/
theorem opening_writesNothing (quiet : endpoint.binding.Respects WritesNothing SameKey)
    (verb : BatchVerb) (context : BatchContext) (state : Memory × τ) :
    WritesNothing state (((endpoint.steps (endpoint.binding.hooksFor verb)).atBatch .beforeBatch
      context).run.perform state).2 := by
  have opening : Interruptible.Ensures WritesNothing (fun _ => True)
      ((endpoint.steps (endpoint.binding.hooksFor verb)).atBatch .beforeBatch context) := by
    refine proceeding_ensures ?_
    exact .bind (Hooks.atBatch_ensures (quiet.hooks verb) _ _) fun _ _ => .pure trivial
  exact (opening state).1

/-- The targets of a batch are fetched from the rows that it was started on. -/
theorem openedTargets_eq_ok (quiet : endpoint.binding.Respects WritesNothing SameKey)
    {targets : List BatchTarget}
    (found : (endpoint.steps (endpoint.binding.hooksFor verb)).openedTargets context plan
      (memory.opened, side) = .ok targets) :
    targets = [] ∨ ∃ opened : Memory × τ, opened.1.contents = memory.contents ∧
      (endpoint.targets context plan).perform opened = (.ok targets, opened) := by
  unfold BatchSteps.openedTargets at found
  split at found
  · rename_i middle passed
    obtain ⟨contents, held, same⟩ := opening_writesNothing quiet verb context
      (memory.opened, side) middle.1.contents (by rw [passed]; exact .inl rfl)
    rw [same] at held
    refine .inr ⟨middle, Memory.holds_opened.mp held, Prod.ext found ?_⟩
    exact (endpoint.targets_ensures context plan middle).1.symm
  · cases found
    exact .inl rfl

/-- What a batch does inside its transaction is one kind of change, when the hooks before it
write nothing and serving the targets that it has fetched is such a change. -/
theorem execute_descends {change : Contents → Contents → Prop} [Std.Refl change]
    [IsTrans Contents change] (quiet : endpoint.binding.Respects WritesNothing SameKey)
    (serves : ∀ targets,
      (endpoint.steps (endpoint.binding.hooksFor verb)).openedTargets context plan
        (memory.opened, side) = .ok targets →
      ((endpoint.steps (endpoint.binding.hooksFor verb)).processAll context targets >>=
        (endpoint.steps (endpoint.binding.hooksFor verb)).conclude).Ensures (Descends change)
          fun _ => True) :
    Descends change (memory.opened, side)
      (((endpoint.steps (endpoint.binding.hooksFor verb)).execute context plan).perform
        (memory.opened, side)).2 := by
  rw [BatchSteps.perform_execute]
  unfold BatchSteps.openedTargets at serves
  have kept := opening_writesNothing quiet verb context (memory.opened, side)
  revert kept serves
  cases (BatchSteps.atBatch _ .beforeBatch context).run.perform (memory.opened, side) with
  | mk result middle =>
      intro serves kept
      cases result with
      | error error => exact kept.descends
      | ok interruptible =>
          cases interruptible with
          | error response => exact kept.descends
          | ok passed =>
              dsimp only at serves kept ⊢
              have unmoved : middle = (((endpoint.steps (endpoint.binding.hooksFor verb)).targets
                  context plan).perform middle).2 := (endpoint.targets_ensures _ _ middle).1
              revert unmoved serves
              generalize ((endpoint.steps _).targets context plan).perform middle = search
              obtain ⟨found, opened⟩ := search
              rintro serves rfl
              cases found with
              | error error => exact kept.descends
              | ok targets =>
                  exact IsTrans.trans _ _ _ kept.descends (serves targets rfl middle).1

/-- Nothing is done yet when a batch starts to serve its targets. -/
theorem serves_of_respects {relation : Memory × τ → Memory × τ → Prop} [Std.Refl relation]
    [IsTrans (Memory × τ) relation] {writable : BatchTarget → Prop}
    {steps : BatchSteps (Memory × τ)} {targets : List BatchTarget}
    (prepared : endpoint.prepareBatch verb request input = .ok (context, plan))
    (respects : steps.Respects relation SameKey writable context)
    (allowed : ∀ target ∈ targets, writable target) :
    (steps.processAll context targets >>= steps.conclude).Ensures relation fun _ => True := by
  obtain ⟨_, _, _, _, _, _, rfl⟩ := prepareBatch_eq_ok prepared
  exact respects.serve [] targets allowed

/-- The targets of a batch on existing rows have keys of rows that it was started on. -/
theorem fetched_keyInScope (quiet : endpoint.binding.Respects WritesNothing SameKey)
    (existing : verb ≠ .store) :
    ∀ target ∈ endpoint.fetched verb request input memory side,
      endpoint.KeyInScope memory.contents target.entity := by
  unfold fetched
  split
  · exact nofun
  · rename_i context plan prepared
    split
    · exact nofun
    · rename_i targets found
      obtain rfl | ⟨⟨opened, rest⟩, sameRows, found⟩ := openedTargets_eq_ok quiet found
      · exact nofun
      · rw [← sameRows]
        exact targets_keyInScope existing prepared found

/-- What is fetched for a batch has the key of a row that the keys reach, and never null. -/
theorem fetchTargets_source {keys : List Value} (isResource : context.resource = endpoint.resource)
    (isScopes : context.scopes = endpoint.scopes) {found : List Entity} {after : Memory × τ}
    (done : (endpoint.fetchTargets context keys).perform (memory, side) = (.ok found, after)) :
    ∀ entity ∈ found, ∃ row ∈ (memory.contents.table endpoint.resource.name).rows,
      endpoint.reaches context.targetScope row = true ∧
        row.get endpoint.resource.keyName ≠ .null := by
  obtain ⟨_, ⟨_, rfl⟩ | ⟨scalars, rows, entities, fetched, loads, rfl⟩⟩ :=
    fetchTargets_eq_ok isResource isScopes done
  · exact nofun
  · intro entity member
    obtain ⟨key, isKey, last⟩ := List.mem_filterMap.mp member
    obtain ⟨isEntity, meant⟩ := List.mem_filter.mp (List.mem_of_getLast? last)
    obtain ⟨row, inTable, matching, counted, counts, _, hasKey⟩ :=
      loads.source fetched entity isEntity
    cases (withCounts_targets row).symm.trans counts
    refine ⟨row, inTable, ((rowMatches_targets scalars).mp matching).1, fun isNull => ?_⟩
    rw [hasKey.trans isNull, Value.null_coincides] at meant
    exact Store.null_not_mem_of_scalars scalars (meant ▸ isKey)

theorem targets_source (existing : verb ≠ .store)
    (prepared : endpoint.prepareBatch verb request input = .ok (context, plan))
    {found : List BatchTarget} {after : Memory × τ}
    (done : (endpoint.targets context plan).perform (memory, side) = (.ok found, after)) :
    ∀ target ∈ found, ∃ row ∈ (memory.contents.table endpoint.resource.name).rows,
      endpoint.reaches context.targetScope row = true ∧
        row.get endpoint.resource.keyName ≠ .null := by
  obtain ⟨checked, parameters, requested, force, _, _, rfl⟩ := prepareBatch_eq_ok prepared
  obtain ⟨changes, rfl⟩ | ⟨keys, rfl⟩ := ofInput_targets existing checked
  · obtain ⟨entities, middle, fetched, done⟩ := Action.perform_bind_eq_ok.mp done
    cases done
    exact List.forall_mem_map.mpr (fetchTargets_source rfl rfl fetched)
  · obtain ⟨entities, middle, fetched, done⟩ := Action.perform_bind_eq_ok.mp done
    cases done
    exact List.forall_mem_map.mpr (fetchTargets_source rfl rfl fetched)

/-- Rows that are marked as trashed in their key column count as trashed as soon as they have a
key, so none of them is found to be trashed. -/
theorem fetched_of_marked (quiet : endpoint.binding.Respects WritesNothing SameKey)
    (keeps : endpoint.KeepsRows .destroy request) (marked : endpoint.resource.marksKey = true) :
    endpoint.fetched .destroy request input memory side = [] := by
  rw [Resource.marksKey, Bool.and_eq_true, beq_iff_eq] at marked
  unfold fetched
  split
  · rfl
  · rename_i context plan prepared
    have trashes := keeps.trashes_of_prepared prepared rfl
    split
    · rfl
    · rename_i targets found
      obtain rfl | ⟨⟨opened, rest⟩, _, found⟩ := openedTargets_eq_ok quiet found
      · rfl
      · refine List.eq_nil_iff_forall_not_mem.mpr fun target isTarget => ?_
        obtain ⟨row, _, reaches, keyed⟩ := targets_source keeps.existing prepared found target
          isTarget
        have live := (reaches_eq_true.mp reaches).1
        obtain ⟨_, parameters, requested, force, _, _, rfl⟩ := prepareBatch_eq_ok prepared
        simp [BatchContext.targetScope, trashes, Contents.inScope, Resource.isTrashed, marked,
          Value.isNull_iff, keyed] at live

/-- The steps of a batch that keeps rows write under the keys of its targets only. -/
theorem steps_keepIdentity (quiet : endpoint.binding.Respects WritesNothing SameKey)
    (keeps : endpoint.KeepsRows verb request)
    (prepared : endpoint.prepareBatch verb request input = .ok (context, plan))
    (isUnmarked : unmarked → verb = .update ∨ endpoint.resource.marksKey = false) :
    (endpoint.steps (endpoint.binding.hooksFor verb)).Respects
      (Descends (Contents.KeepsIdentity endpoint.resource unmarked allowed)) SameKey
      (fun target => ∀ other : Value, other.coincides target.entity.key = true →
        allowed other = true) context := by
  have trashes := keeps.trashes_of_prepared prepared
  obtain ⟨_, parameters, requested, force, _, _, rfl⟩ := prepareBatch_eq_ok prepared
  refine steps_respects (quiet.relax (fun _ _ => WritesNothing.descends) fun _ _ same => same)
    ?_ ?_ verb
  · intro done target entity permitted sameKey
    rw [SameKey] at sameKey
    rw [← sameKey] at permitted
    exact mutate_keepsIdentity keeps.existing trashes isUnmarked permitted
  · intro target entity sameKey
    rw [SameKey, BatchTarget.key_filled]
    exact sameKey

/-- A batch that keeps rows changes them only under the keys of targets that it has fetched. -/
theorem runBatch_writesFetched (quiet : endpoint.binding.Respects WritesNothing SameKey)
    (keeps : endpoint.KeepsRows verb request)
    (isUnmarked : unmarked → verb = .update ∨ endpoint.resource.marksKey = false) :
    memory.contents.KeepsIdentity endpoint.resource unmarked
      (fun key => (endpoint.fetched verb request input memory side).any
        fun target => key.coincides target.entity.key)
      ((endpoint.runBatch verb request input).perform (memory, side)).2.1.contents := by
  unfold fetched
  cases prepared : endpoint.prepareBatch verb request input with
  | error error =>
      rw [(runBatch_unprepared prepared).1]
      exact Std.Refl.refl memory.contents
  | ok both =>
      obtain ⟨context, plan⟩ := both
      rw [(runBatch_prepared prepared).1]
      refine BatchSteps.run_descends (execute_descends quiet fun targets found => ?_)
      dsimp only
      rw [found]
      refine serves_of_respects prepared (steps_keepIdentity quiet keeps prepared isUnmarked) ?_
      exact fun target isTarget other same => List.any_eq_true.mpr ⟨target, isTarget, same⟩

/-- The steps of a batch that stores only add rows. -/
theorem steps_extend (quiet : endpoint.binding.Respects WritesNothing SameKey)
    (prepared : endpoint.prepareBatch .store request input = .ok (context, plan)) :
    (endpoint.steps (endpoint.binding.hooksFor .store)).Respects
      (Descends (Contents.Extends endpoint.resource.name)) SameKey (fun _ => True) context := by
  obtain ⟨_, parameters, requested, force, _, _, rfl⟩ := prepareBatch_eq_ok prepared
  refine steps_respects (quiet.relax (fun _ _ => WritesNothing.descends) fun _ _ same => same)
    ?_ ?_ .store
  · intro done target entity _ _
    exact Memory.write_descends _ fun _ _ _ stored => Contents.insert_extends stored
  · intro target entity sameKey
    rw [SameKey, BatchTarget.key_filled]
    exact sameKey

/-- A batch that stores only adds rows, to the table of its resource and at its end. -/
theorem runBatch_extends (quiet : endpoint.binding.Respects WritesNothing SameKey) :
    memory.contents.Extends endpoint.resource.name
      ((endpoint.runBatch .store request input).perform (memory, side)).2.1.contents := by
  cases prepared : endpoint.prepareBatch .store request input with
  | error error =>
      rw [(runBatch_unprepared prepared).1]
      exact Std.Refl.refl memory.contents
  | ok both =>
      obtain ⟨context, plan⟩ := both
      rw [(runBatch_prepared prepared).1]
      refine BatchSteps.run_descends (execute_descends quiet fun targets _ => ?_)
      exact serves_of_respects prepared (steps_extend quiet prepared) fun _ _ => trivial

/-- The rows of every table keep their keys, and rows that are no fetched targets are as they were.
Every row is filed under its own key, unless restoring takes the mark of trashed rows from the key
column. -/
structure IdentityKept (endpoint : Endpoint (Memory × τ)) (verb : BatchVerb)
    (targets : List BatchTarget) (before after : Contents) : Prop where
  keys : ∀ name, (after.table name).map Prod.fst = (before.table name).map Prod.fst
  others : ∀ name, name ≠ endpoint.resource.name → after.table name = before.table name
  untargeted : ∀ entry ∈ before.table endpoint.resource.name,
    (∀ target ∈ targets, target.entity.key ≠ entry.1) → entry ∈ after.table endpoint.resource.name
  filed : (verb = .restore → endpoint.resource.marksKey = false) →
    (after.table endpoint.resource.name).WellFiled endpoint.resource.keyName

/-- However a batch ends, hooks that assign attributes but write no rows do not change identity:
updating, trashing and restoring keep every row under its key and change only fetched targets, and
storing keeps every row that was there. -/
theorem hooks_keepIdentity (endpoint : Endpoint (Memory × τ)) (request : Request)
    (input : BatchInput) (memory : Memory) (side : τ)
    (quiet : endpoint.binding.Respects WritesNothing SameKey)
    (wellFiled : (memory.contents.table endpoint.resource.name).WellFiled
      endpoint.resource.keyName) :
    (∀ verb, endpoint.KeepsRows verb request →
      endpoint.IdentityKept verb (endpoint.fetched verb request input memory side) memory.contents
        ((endpoint.runBatch verb request input).perform (memory, side)).2.1.contents) ∧
    memory.contents.Extends endpoint.resource.name
      ((endpoint.runBatch .store request input).perform (memory, side)).2.1.contents := by
  refine ⟨fun verb keeps => ?_, runBatch_extends quiet⟩
  have written : memory.contents.KeepsIdentity endpoint.resource
      (verb = .update ∨ endpoint.resource.marksKey = false) _
      ((endpoint.runBatch verb request input).perform (memory, side)).2.1.contents :=
    runBatch_writesFetched quiet keeps id
  refine ⟨fun name => ?_, written.changesOnly.others, ?_, fun kept => ?_⟩
  · by_cases same : name = endpoint.resource.name
    · rw [same]
      exact written.keys
    · rw [written.changesOnly.others name same]
  · intro entry isEntry untargeted
    refine (written.changesOnly.mem_iff ?_).mpr isEntry
    rw [List.any_eq_false]
    intro target isTarget meant
    obtain ⟨row, inRows, _, isKey⟩ := fetched_keyInScope quiet keeps.existing target isTarget
    obtain ⟨other, isOther, rfl⟩ := List.mem_map.mp inRows
    rw [wellFiled.filed other isOther] at isKey
    rw [isKey] at meant
    exact untargeted target isTarget (isKey.trans (congrArg Prod.fst
      (wellFiled.entry_eq isEntry isOther meant)).symm)
  · cases marked : endpoint.resource.marksKey with
    | false => exact written.wellFiled (.inr marked) wellFiled
    | true =>
        cases verb with
        | store => exact absurd rfl keeps.existing
        | update => exact written.wellFiled (.inl rfl) wellFiled
        | restore => cases marked.symm.trans (kept rfl)
        | destroy =>
            -- Nothing is fetched, so nothing is written.
            have same := written.changesOnly.untouched
            rw [fetched_of_marked quiet keeps marked] at same
            simp only [List.any_nil, Bool.not_false, List.filter_true] at same
            rwa [same]

/-- Hooks that rename an entity, give it another key among its attributes and attach a relation;
once it is written, they close the transaction of the batch and fail. -/
def meddlingHooks : HookSet (Memory × Unit) where
  atEntity point _ entity :=
    if point = .beforeFresh then do
      Store.commit
      throw (.plain .type)
    else
      let meddled := entity.attributes.merge [("id", .int 4), ("name", .text "meddled")]
      pure ((entity.withAttributes meddled).attach "parent" .absent, .proceed)

/-- An endpoint for nodes with these hooks on updates. -/
def meddledEndpoint : Endpoint (Memory × Unit) where
  registry := {}
  now := Samples.Library.trashedAt
  binding := { resource := Samples.Library.nodes, hooks := [(.update, .single meddlingHooks)] }

theorem meddledEndpoint_quiet : meddledEndpoint.binding.Respects WritesNothing SameKey where
  authorizer _ _ _ := by
    refine .pure ?_
    rintro entity changed rfl same
    cases same
    rfl
  hooks verb := by
    cases verb with
    | update =>
        refine ⟨fun _ _ => .pure trivial, fun point _ entity => ?_⟩
        by_cases written : point = .beforeFresh
        · simp only [meddlingHooks, if_pos written]
          exact .bind Memory.commit_writesNothing fun _ _ => .throw _
        · simp only [meddlingHooks, if_neg written]
          refine .pure ?_
          cases entity
          rfl
    | _ => trivial

theorem filedNodes_wellFiled : (filedNodes.contents.table "nodes").WellFiled "id" where
  filed := by
    intro entry member
    cases member with
    | head => rfl
    | tail _ member =>
        cases member with
        | head => rfl
        | tail _ member => cases member
  distinct := .cons (by simp; decide) (.cons (by simp) .nil)

/-- The update fails, but what was written before stays: the name, and no other key. -/
theorem hooks_keepIdentity_meddled :
    let input : BatchInput := .keyed (.int 2) []
    let ran := (meddledEndpoint.runBatch .update {} input).perform (filedNodes, ())
    meddledEndpoint.binding.Respects WritesNothing SameKey ∧
      (filedNodes.contents.table "nodes").WellFiled "id" ∧
      meddledEndpoint.KeepsRows .update {} ∧ ran.1.isOk = false ∧
      (ran.2.1.contents.table "nodes").rows.any
        (fun row => (row.get "name").same (.text "meddled")) = true ∧
      meddledEndpoint.IdentityKept .update (meddledEndpoint.fetched .update {} input filedNodes ())
        filedNodes.contents ran.2.1.contents := by
  intro input ran
  have keeps : meddledEndpoint.KeepsRows .update {} := ⟨nofun, nofun⟩
  exact ⟨meddledEndpoint_quiet, filedNodes_wellFiled, keeps, by decide +kernel, by decide +kernel,
    (hooks_keepIdentity meddledEndpoint {} input filedNodes () meddledEndpoint_quiet
      filedNodes_wellFiled).1 .update keeps⟩

/-- An endpoint for nodes that are marked as trashed in their key column, with hooks that respond
as soon as a node is restored. -/
def markingEndpoint : Endpoint (Memory × Unit) where
  registry := {}
  now := Samples.Library.trashedAt
  binding := {
    resource := markedNodes
    hooks := [(.restore, .single {
      atEntity := fun point _ entity =>
        pure (entity, if point = .beforeFresh then .respond (.text "restored") else .proceed) })] }

theorem markingEndpoint_quiet : markingEndpoint.binding.Respects WritesNothing SameKey where
  authorizer _ _ _ := by
    refine .pure ?_
    rintro entity changed rfl same
    cases same
    rfl
  hooks verb := by
    cases verb with
    | restore => exact ⟨fun _ _ => .pure trivial, fun _ _ _ => .pure rfl⟩
    | _ => trivial

/-- Where trashed rows are marked in the key column, a node that is restored loses its key there
and stays filed under it. -/
theorem restored_node_misfiled :
    let ran := (markingEndpoint.runBatch .restore {} (.given (.list [.int 2]))).perform
      (filedNodes, ())
    Registry.validate ⟨[markedNodes]⟩ = .ok () ∧
      markingEndpoint.binding.Respects WritesNothing SameKey ∧
      (filedNodes.contents.table "nodes").WellFiled "id" ∧
      markingEndpoint.KeepsRows .restore {} ∧ ran.1.isOk = true ∧
      ¬ (ran.2.1.contents.table "nodes").WellFiled "id" := by
  intro ran
  refine ⟨rfl, markingEndpoint_quiet, filedNodes_wellFiled, ⟨nofun, nofun⟩,
    by decide +kernel, fun wellFiled => ?_⟩
  have misfiled : (ran.2.1.contents.table "nodes").any
      (fun entry => entry.1.same (.int 2) && !(entry.2.get "id").same (.int 2)) = true := by
    decide +kernel
  obtain ⟨entry, member, wrong⟩ := List.any_eq_true.mp misfiled
  rw [wellFiled.filed entry member, Bool.and_eq_true, Bool.not_eq_true'] at wrong
  rw [wrong.1] at wrong
  cases wrong.2

end Endpoint

end ResourceServer
