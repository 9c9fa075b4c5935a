import ResourceServer.Proofs.Batch.Reaching
import ResourceServer.Proofs.Keys.Plans
import ResourceServer.Proofs.Resolution.Memory

/-!
# Batches that revise rows

A batch that updates, destroys or restores revises the rows that its keys reach, each one on its
own: the row is written under its key or taken away, and no other row is touched.  Taking the
targets one after another comes to the same as revising all of their rows at once.
-/

namespace ResourceServer

@[simp]
theorem Entity.attributes_withAttributes (entity : Entity) (attributes : Record) :
    (entity.withAttributes attributes).attributes = attributes := by
  cases entity
  rfl

@[simp]
theorem Entity.key_withAttributes (entity : Entity) (attributes : Record) :
    (entity.withAttributes attributes).key = entity.key := by
  cases entity
  rfl

/-- The columns in which a payload differs from what was read of a row. -/
def Resource.revisions (resource : Resource) (row payload : Record) : Record :=
  let read := row.project (distinctNames resource.columns)
  (read.merge payload).filter fun entry =>
    resource.columns.contains entry.1 && entry.1 != resource.keyName &&
      !(read.get entry.1).same entry.2

namespace BatchContext

variable {context : BatchContext} {now : Moment} {payload row : Record}

/-- What a batch writes over a row that it keeps. -/
def changes (context : BatchContext) (now : Moment) (payload row : Record) : Record :=
  match context.verb with
  | .store => []
  | .update => context.resource.revisions row payload
  | .destroy => [(context.resource.deletedAtColumn, .moment now)]
  | .restore => [(context.resource.deletedAtColumn, .null)]

/-- What becomes of a row that a batch takes up: the row that is written, or nothing when it is
removed. -/
def fate (context : BatchContext) (now : Moment) (payload row : Record) : Option Record :=
  if context.readsBack then some (row.merge (context.changes now payload row)) else none

/-- Key columns are left alone, apart from marks, under which no row can be found. -/
theorem mem_changes {change : String × Value} (member : change ∈ context.changes now payload row) :
    change.1 ≠ context.resource.keyName ∨
      ∀ other, change.2.coincides other = true → Filter.isScalar other = false := by
  unfold changes at member
  cases verb : context.verb with
  | store =>
      rw [verb] at member
      cases member
  | update =>
      rw [verb] at member
      have passes := List.of_mem_filter member
      rw [Bool.and_eq_true, Bool.and_eq_true, bne_iff_ne] at passes
      exact .inl passes.1.2
  | destroy =>
      rw [verb] at member
      obtain rfl := List.mem_singleton.mp member
      refine .inr fun other same => ?_
      obtain ⟨instant, rfl, _⟩ := Value.moment_coincides.mp same
      rfl
  | restore =>
      rw [verb] at member
      obtain rfl := List.mem_singleton.mp member
      refine .inr fun other same => ?_
      rw [Value.null_coincides.mp same]
      rfl

/-- A row that a batch writes stays under its key, as it would not be read back otherwise. -/
theorem fate_keyed {entry : Value × Record} {key : Value}
    (filed : entry.2.get context.resource.keyName = entry.1)
    (complete : Record.has entry.2 context.resource.keyName = true)
    (written : context.fate now payload entry.2 = some row)
    (scalar : Filter.isScalar key = true)
    (found : (row.get context.resource.keyName).coincides key = true) :
    row.get context.resource.keyName = entry.1 ∧ row.has context.resource.keyName = true := by
  unfold fate at written
  split at written
  · cases written
    refine ⟨?_, Record.has_merge complete⟩
    rw [← filed]
    refine Record.get_merge_other ?_
    rw [← Bool.not_eq_true]
    intro changed
    -- The key column was written last with a value that is never found.
    obtain ⟨change, member, same, value⟩ :=
      Record.exists_of_has_merge entry.2 changed
    rw [value] at found
    obtain other | unfound := mem_changes member
    · exact other same
    · rw [unfound key found] at scalar
      cases scalar
  · cases written

end BatchContext

/-- The target is about a row, and for this payload. -/
structure BatchTarget.Aims (context : BatchContext) (payload : Record) (entry : Value × Record)
    (target : BatchTarget) : Prop where
  copy : target.entity.CopyOf context.resource entry
  payload : target.payload = payload
  read : context.verb = .update → target.attributesRead = target.entity.attributes

/-- What a batch answers with for a row: the row as it was when it is removed, and the row as it is
read back when it is written. -/
inductive BatchContext.Answers (context : BatchContext) (entry : Value × Record) :
    Option Record → Entity → Prop
  | removed {entity : Entity} (copy : entity.CopyOf context.resource entry) :
      Answers context entry none entity
  | written {row : Record} {spec : QuerySpec} {entity : Entity}
      (built : context.freshQuery = .ok spec) (presents : entity.Presents spec (entry.1, row))
      (existing : entity.wasRecentlyCreated = false) : Answers context entry (some row) entity

/-! ## Writes under one key -/

theorem Table.revise_self {table : Table} {keyName : String} {entry : Value × Record}
    (wellFiled : table.WellFiled keyName) (isEntry : entry ∈ table) :
    (table.revise entry.1 fun _ => some entry.2) = table := by
  refine (List.filterMap_congr fun other isOther => ?_).trans List.filterMap_some
  split
  · rename_i meant
    rw [wellFiled.entry_eq isOther isEntry meant]
    rfl
  · rfl

/-- A table stays intact when one row is left as it is, passes the check for unique values, or is
taken away. -/
theorem Table.Intact.revise_entry {resource : Resource} {table : Table} {entry : Value × Record}
    {changed : Option Record} (intact : table.Intact resource)
    (keyed : table.Keyed resource.keyName) (isEntry : entry ∈ table)
    (kept : ∀ row, changed = some row →
      row.get resource.keyName = entry.1 ∧ row.has resource.keyName = true)
    (checked : ∀ row, changed = some row →
      row = entry.2 ∨ Contents.checkUnique resource table entry.1 row = .ok ()) :
    (table.revise entry.1 fun _ => changed).Intact resource := by
  cases changed with
  | none =>
      rw [← Table.remove_eq_revise]
      exact intact.sublist List.filter_sublist
  | some row =>
      obtain rfl | unique := checked row rfl
      · rw [Table.revise_self keyed.toWellFiled isEntry]
        exact intact
      · rw [← Table.replace_eq_revise]
        refine intact.replace (intact.keys entry isEntry) unique fun _ other isOther meant => ?_
        rw [keyed.entry_eq isOther isEntry meant]
        exact (kept row rfl).1

namespace Contents

variable {contents after : Contents} {resource : Resource} {key : Value} {row changes : Record}
variable {count : Int}

/-- Changes of a row that is there are written over it, unless they repeat unique values. -/
theorem update_filed (wellFiled : (contents.table resource.name).WellFiled resource.keyName)
    (isKey : key.isKey = true) (isEntry : (key, row) ∈ contents.table resource.name)
    (meant : key.coincides key = true) :
    contents.update resource key changes = .ok (count, after) ↔
      (changes = [] ∧ count = 0 ∧ after = contents) ∨
      (changes ≠ [] ∧ count = 1 ∧
        checkUnique resource (contents.table resource.name) key (row.merge changes) = .ok () ∧
        after = contents.withTable resource.name
          ((contents.table resource.name).revise key fun _ => some (row.merge changes))) := by
  unfold update
  dsimp only
  cases changes with
  | nil =>
      constructor
      · intro done
        cases done
        exact .inl ⟨rfl, rfl, rfl⟩
      · rintro (⟨_, rfl, rfl⟩ | ⟨some, _⟩)
        · rfl
        · exact absurd rfl some
  | cons change rest =>
      rw [isKey, wellFiled.find?_eq isKey isEntry meant]
      rw [List.isEmpty_cons, if_neg Bool.false_ne_true, Bool.not_true,
        if_neg Bool.false_ne_true, bind_eq_ok, Table.replace_eq_revise]
      constructor
      · rintro ⟨_, checked, done⟩
        cases done
        exact .inr ⟨List.cons_ne_nil _ _, rfl, checked, rfl⟩
      · rintro (⟨none, _⟩ | ⟨_, rfl, checked, rfl⟩)
        · cases none
        · exact ⟨(), checked, rfl⟩

theorem delete_filed (isKey : key.isKey = true) (isEntry : (key, row) ∈ contents.table resource.name)
    (meant : key.coincides key = true) :
    contents.delete resource key = .ok (1, contents.withTable resource.name
      ((contents.table resource.name).revise key fun _ => none)) := by
  have present : (contents.table resource.name).hasKey key = true :=
    List.any_eq_true.mpr ⟨_, isEntry, meant⟩
  unfold delete
  dsimp only
  rw [isKey, present, Table.remove_eq_revise]
  rfl

end Contents

namespace Memory

variable {τ : Type}

theorem perform_write_eq_ok {α : Type} (change : Contents → Except Error (α × Contents))
    {memory : Memory} {side : τ} {result : α} {after : Memory × τ} :
    ((write change).onFirst : Action (Memory × τ) α).perform (memory, side) = (.ok result, after) ↔
      ∃ contents, change memory.contents = .ok (result, contents) ∧
        after = ({ memory with contents }, side) := by
  rw [perform_write]
  cases change memory.contents with
  | error error => simp
  | ok both =>
      obtain ⟨other, contents⟩ := both
      constructor
      · intro done
        cases done
        exact ⟨contents, rfl, rfl⟩
      · rintro ⟨_, done, rfl⟩
        cases done
        rfl

theorem perform_update_eq_ok {resource : Resource} {key : Value} {changes : Record}
    {memory : Memory} {side : τ} {count : Int} {after : Memory × τ} :
    (Store.update resource key changes : Action (Memory × τ) _).perform (memory, side) =
        (.ok count, after) ↔
      ∃ contents, memory.contents.update resource key changes = .ok (count, contents) ∧
        after = ({ memory with contents }, side) :=
  perform_write_eq_ok fun contents => contents.update resource key changes

theorem perform_delete_eq_ok {resource : Resource} {key : Value} {memory : Memory} {side : τ}
    {count : Int} {after : Memory × τ} :
    (Store.delete resource key : Action (Memory × τ) _).perform (memory, side) =
        (.ok count, after) ↔
      ∃ contents, memory.contents.delete resource key = .ok (count, contents) ∧
        after = ({ memory with contents }, side) :=
  perform_write_eq_ok fun contents => contents.delete resource key

end Memory

namespace Endpoint

variable {τ : Type} {endpoint : Endpoint (Memory × τ)} {context : BatchContext}
variable {target : BatchTarget} {memory : Memory} {side : τ} {entry : Value × Record}
variable {payload : Record}

/-- The write for a target changes its row, or removes it when it is not to be read back. -/
theorem mutate_eq {σ : Type} [Store σ] {endpoint : Endpoint σ} (existing : context.verb ≠ .store)
    (trashable : context.verb = .restore → context.resource.softDeletes = true)
    (aims : target.Aims context payload entry) :
    endpoint.mutate context target (target.filled context.verb target.entity) =
      (if context.readsBack then
          Store.update context.resource entry.1 (context.changes endpoint.now payload entry.2)
        else Store.delete context.resource entry.1) >>= fun _ => pure entry.1 := by
  have sameKey := aims.copy.key
  unfold mutate BatchContext.changes BatchContext.readsBack
  cases verb : context.verb with
  | store => exact absurd verb existing
  | update =>
      have changed : target.changedValues context.resource
          (target.filled .update target.entity) =
            context.resource.revisions entry.2 payload := by
        rw [BatchTarget.changedValues, aims.read verb, BatchTarget.filled,
          Entity.attributes_withAttributes, aims.copy.attributes, aims.payload]
        rfl
      dsimp only
      rw [changed, BatchTarget.filled, Entity.key_withAttributes, sameKey]
      rfl
  | destroy =>
      dsimp only [BatchTarget.filled]
      rw [sameKey]
      cases trashes : context.trashes with
      | true =>
          have softDeletes : context.resource.softDeletes = true := by
            rw [BatchContext.trashes, Bool.and_eq_true] at trashes
            exact trashes.1
          rw [if_pos rfl, Store.softDelete, if_pos softDeletes]
          rfl
      | false => rfl
  | restore =>
      dsimp only [BatchTarget.filled]
      rw [sameKey, Store.restore, if_pos (trashable verb)]
      rfl

/-- The write for a target puts what becomes of its row in the place of that row. -/
theorem mutate_revises
    (wellFiled :
      (memory.contents.table context.resource.name).WellFiled context.resource.keyName)
    (isEntry : entry ∈ memory.contents.table context.resource.name)
    (isKey : entry.1.isKey = true) (meant : entry.1.coincides entry.1 = true)
    (existing : context.verb ≠ .store)
    (trashable : context.verb = .restore → context.resource.softDeletes = true)
    (aims : target.Aims context payload entry) {key : Value} {after : Memory × τ}
    (done : (endpoint.mutate context target (target.filled context.verb target.entity)).perform
      (memory, side) = (.ok key, after)) :
    key = entry.1 ∧ ∃ contents, after = ({ memory with contents }, side) ∧
      memory.contents.DiffersAt context.resource.name contents ∧
      contents.table context.resource.name =
        (memory.contents.table context.resource.name).revise entry.1
          (fun _ => context.fate endpoint.now payload entry.2) ∧
      ∀ row, context.fate endpoint.now payload entry.2 = some row → row = entry.2 ∨
        Contents.checkUnique context.resource (memory.contents.table context.resource.name)
          entry.1 row = .ok () := by
  rw [mutate_eq existing trashable aims] at done
  obtain ⟨count, middle, wrote, done⟩ := Action.perform_bind_eq_ok.mp done
  cases done
  refine ⟨rfl, ?_⟩
  have filled := List.ne_nil_of_mem isEntry
  unfold BatchContext.fate
  split at wrote
  · rename_i keeps
    obtain ⟨contents, updated, rfl⟩ := Memory.perform_update_eq_ok.mp wrote
    refine ⟨contents, rfl, ?_⟩
    rw [if_pos keeps]
    obtain ⟨noChanges, _, rfl⟩ | ⟨_, _, checked, rfl⟩ :=
      (Contents.update_filed wellFiled isKey isEntry meant).mp updated
    · rw [noChanges]
      refine ⟨Std.Refl.refl _, (Table.revise_self wellFiled isEntry).symm, ?_⟩
      rintro _ ⟨⟩
      exact .inl rfl
    · refine ⟨.withTable filled _, Contents.table_withTable _ _ _, ?_⟩
      rintro _ ⟨⟩
      exact .inr checked
  · rename_i removes
    obtain ⟨contents, deleted, rfl⟩ := Memory.perform_delete_eq_ok.mp wrote
    rw [Contents.delete_filed isKey isEntry meant] at deleted
    cases deleted
    rw [if_neg removes]
    exact ⟨_, rfl, .withTable filled _, Contents.table_withTable _ _ _, nofun⟩

/-- A target that is served puts what becomes of its row in the place of that row, where it keeps
its key, and is answered with that. -/
theorem serveTarget_revises (grants : endpoint.binding.authorizer.GrantsAll)
    (existing : context.verb ≠ .store)
    (trashable : context.verb = .restore → context.resource.softDeletes = true)
    (keyed : (memory.contents.table context.resource.name).Keyed context.resource.keyName)
    (isEntry : entry ∈ memory.contents.table context.resource.name)
    (isKey : entry.1.isKey = true) (meant : entry.1.coincides entry.1 = true)
    (aims : target.Aims context payload entry) {entity : Entity} {after : Memory × τ}
    (done : (endpoint.serveTarget context target).perform (memory, side) = (.ok entity, after)) :
    (∀ row, context.fate endpoint.now payload entry.2 = some row →
      row.get context.resource.keyName = entry.1 ∧ row.has context.resource.keyName = true) ∧
    context.Answers entry (context.fate endpoint.now payload entry.2) entity ∧
    ∃ contents, after = ({ memory with contents }, side) ∧
      memory.contents.DiffersAt context.resource.name contents ∧
      contents.table context.resource.name =
        (memory.contents.table context.resource.name).revise entry.1
          (fun _ => context.fate endpoint.now payload entry.2) ∧
      ∀ row, context.fate endpoint.now payload entry.2 = some row → row = entry.2 ∨
        Contents.checkUnique context.resource (memory.contents.table context.resource.name)
          entry.1 row = .ok () := by
  rw [perform_serveTarget grants] at done
  obtain ⟨key, middle, written, done⟩ := Action.perform_bind_eq_ok.mp done
  obtain ⟨rfl, contents, rfl, differs, revised, checked⟩ :=
    mutate_revises keyed.toWellFiled isEntry isKey meant existing trashable aims written
  unfold BatchSteps.refresh at done
  cases readsBack : context.readsBack with
  | false =>
      have fate : context.fate endpoint.now payload entry.2 = none := by
        rw [BatchContext.fate, readsBack]
        rfl
      have isDestroy : context.verb = .destroy := by
        rw [BatchContext.readsBack, Bool.not_eq_false', Bool.and_eq_true] at readsBack
        exact eq_of_beq readsBack.1
      rw [readsBack, if_neg Bool.false_ne_true, isDestroy] at done
      cases done
      rw [fate] at revised ⊢
      refine ⟨?_, .removed aims.copy, contents, rfl, differs, revised, ?_⟩
      · rintro _ ⟨⟩
      · rintro _ ⟨⟩
  | true =>
      have fate : context.fate endpoint.now payload entry.2 =
          some (entry.2.merge (context.changes endpoint.now payload entry.2)) := by
        rw [BatchContext.fate, readsBack]
        rfl
      revert fate
      generalize Record.merge entry.2 (context.changes endpoint.now payload entry.2) = row
      intro fate
      rw [fate] at revised checked ⊢
      rw [readsBack, if_pos rfl] at done
      obtain ⟨rfl, scalar, found, inTable, _, same, _, _, _, created, _⟩ := refetch_source done
      obtain ⟨other, isOther, rfl⟩ := List.mem_map.mp inTable
      -- Only the row that was written can have been found under its key.
      have isWritten : other = (entry.1, row) := by
        rw [revised] at isOther
        obtain ⟨old, isOld, made⟩ := List.mem_filterMap.mp isOther
        split at made
        · rename_i meantOld
          cases made
          rw [keyed.entry_eq isOld isEntry meantOld]
        · rename_i notMeant
          cases made
          rw [keyed.filed other isOld] at same
          exact absurd same notMeant
      subst isWritten
      have kept := BatchContext.fate_keyed (keyed.filed entry isEntry)
        (keyed.complete entry isEntry) fate scalar same
      have keyedAfter : (contents.table context.resource.name).Keyed context.resource.keyName := by
        rw [revised]
        refine keyed.revise_entry isEntry ?_
        rintro _ ⟨⟩
        exact kept
      obtain ⟨_, spec, built, presents, _⟩ := refetch_presents keyedAfter isOther meant done
      refine ⟨?_, .written built presents ?_, contents, rfl, differs, revised, checked⟩
      · rintro _ ⟨⟩
        exact kept
      · rw [created]
        exact beq_eq_false_iff_ne.mpr existing

/-- Targets that are served one after another revise their rows one after another, and are answered
with what becomes of them. -/
theorem serveTargets_revise (grants : endpoint.binding.authorizer.GrantsAll)
    (existing : context.verb ≠ .store)
    (trashable : context.verb = .restore → context.resource.softDeletes = true)
    {payloadOf : Value → Record}
    {entries : List (Value × Record)} {targets : List BatchTarget}
    (aims : List.Forall₂ (fun entry target => target.Aims context (payloadOf entry.1) entry)
      entries targets)
    (keyed : (memory.contents.table context.resource.name).Keyed context.resource.keyName)
    (included : entries ⊆ memory.contents.table context.resource.name)
    (areKeys : ∀ entry ∈ entries, entry.1.isKey = true ∧ entry.1.coincides entry.1 = true)
    (apart : Table.Apart entries) {found : List Entity} {after : Memory × τ}
    (done : (targets.mapM (endpoint.serveTarget context)).perform (memory, side) =
      (.ok found, after)) :
    (∀ entry ∈ entries, ∀ row, context.fate endpoint.now (payloadOf entry.1) entry.2 = some row →
      row.get context.resource.keyName = entry.1 ∧ row.has context.resource.keyName = true) ∧
    List.Forall₂ (fun entry entity => context.Answers entry
      (context.fate endpoint.now (payloadOf entry.1) entry.2) entity) entries found ∧
    ∃ contents, after = ({ memory with contents }, side) ∧
      memory.contents.DiffersAt context.resource.name contents ∧
      (contents.table context.resource.name).Keyed context.resource.keyName ∧
      ((memory.contents.table context.resource.name).Intact context.resource →
        (contents.table context.resource.name).Intact context.resource) ∧
      contents.table context.resource.name =
        entries.foldl (fun table entry => table.revise entry.1
            fun _ => context.fate endpoint.now (payloadOf entry.1) entry.2)
          (memory.contents.table context.resource.name) := by
  induction aims generalizing memory found with
  | nil =>
      cases done
      exact ⟨nofun, .nil, memory.contents, rfl, Std.Refl.refl _, keyed, id, rfl⟩
  | @cons entry target entries targets first rest induction =>
      rw [List.mapM_cons] at done
      obtain ⟨entity, middle, served, done⟩ := Action.perform_bind_eq_ok.mp done
      obtain ⟨entities, last, others, done⟩ := Action.perform_bind_eq_ok.mp done
      cases done
      rw [List.cons_subset] at included
      rw [List.forall_mem_cons] at areKeys
      rw [Table.Apart, List.pairwise_cons] at apart
      obtain ⟨kept, answers, contents, rfl, differs, revised, checked⟩ := serveTarget_revises grants
        existing trashable keyed included.1 areKeys.1.1 areKeys.1.2 first served
      have keyedAfter : (contents.table context.resource.name).Keyed context.resource.keyName := by
        rw [revised]
        exact keyed.revise_entry included.1 kept
      have stays : entries ⊆ contents.table context.resource.name := by
        rw [revised]
        exact fun other isOther =>
          Table.mem_revise_of_apart (included.2 isOther) (apart.1 other isOther).2
      obtain ⟨keptLater, answersLater, last, rfl, differsLater, keyedLater, intactLater,
          revisedLater⟩ :=
        induction keyedAfter stays areKeys.2 apart.2 others
      refine ⟨List.forall_mem_cons.mpr ⟨kept, keptLater⟩, .cons answers answersLater,
        last, rfl, IsTrans.trans _ _ _ differs differsLater, keyedLater, fun intact => ?_, ?_⟩
      · refine intactLater ?_
        rw [revised]
        exact intact.revise_entry keyed included.1 kept checked
      · rw [revisedLater, revised, List.foldl_cons]

end Endpoint

/-! ## Batches on existing rows -/

/-- The payload that a plan has for a key. -/
def BatchPlan.payloadFor : BatchPlan → Value → Record
  | .changes entries => changesOf entries
  | _ => fun _ => []

/-- The target that a plan about existing rows makes of an entity. -/
def BatchPlan.aim : BatchPlan → Entity → BatchTarget
  | .changes entries, entity => ⟨entity, changesOf entries entity.key, entity.attributes⟩
  | _, entity => { entity }

theorem BatchPlan.entity_aim (plan : BatchPlan) (entity : Entity) :
    (plan.aim entity).entity = entity := by
  cases plan with
  | payloads payloads => rfl
  | changes changes => rfl
  | keys keys => rfl

namespace Endpoint

variable {τ : Type} {endpoint : Endpoint (Memory × τ)} {context : BatchContext}
variable {plan : BatchPlan} {memory : Memory} {side : τ} {entry : Value × Record}

/-- What becomes of a row that a plan takes up. -/
def change (endpoint : Endpoint (Memory × τ)) (context : BatchContext) (plan : BatchPlan)
    (entry : Value × Record) : Option Record :=
  context.fate endpoint.now (plan.payloadFor entry.1) entry.2

/-- A batch on existing rows has revised the rows that its keys reach, and no others, and answers
with what has become of them, in the order of the keys. -/
structure Revises (endpoint : Endpoint (Memory × τ)) (context : BatchContext) (plan : BatchPlan)
    (before after : Contents) (entities : List Entity) : Prop where
  differs : before.DiffersAt endpoint.resource.name after
  rows : after.table endpoint.resource.name =
    (before.table endpoint.resource.name).filterMap fun entry =>
      if endpoint.hits context.targetScope plan.rowKeys entry then
        (endpoint.change context plan entry).map (Prod.mk entry.1)
      else some entry
  scalars : ∀ key ∈ plan.rowKeys, Filter.isScalar key = true
  keyed : (after.table endpoint.resource.name).Keyed endpoint.resource.keyName
  intact : (before.table endpoint.resource.name).Intact endpoint.resource →
    (after.table endpoint.resource.name).Intact endpoint.resource
  answers : List.Forall₂
    (fun entry entity => context.Answers entry (endpoint.change context plan entry) entity)
    (endpoint.reached context.targetScope before plan.rowKeys) entities

theorem hits_distinct {trashed : TrashedScope} {keys : List Value}
    (areKeys : ∀ key ∈ keys, key.isKey = true) :
    endpoint.hits trashed (Value.distinct keys) = endpoint.hits trashed keys := by
  funext entry
  rw [hits, hits, Value.isIn_distinct areKeys]

theorem not_payloads {verb : BatchVerb} {input : BatchInput} (existing : verb ≠ .store)
    (checked : BatchPlan.ofInput endpoint.binding verb input = .ok plan) :
    ∀ payloads, plan ≠ .payloads payloads := by
  rintro payloads rfl
  obtain ⟨_, isChanges⟩ | ⟨_, isKeys⟩ := ofInput_targets existing checked
  · cases isChanges
  · cases isKeys

/-- A context and a plan of a batch on existing rows, as a request is prepared for them. -/
structure Prepares (endpoint : Endpoint (Memory × τ)) (context : BatchContext) (plan : BatchPlan) :
    Prop where
  isResource : context.resource = endpoint.resource
  isScopes : context.scopes = endpoint.scopes
  existing : context.verb ≠ .store
  trashable : context.verb = .restore → context.resource.softDeletes = true
  aboutRows : ∀ payloads, plan ≠ .payloads payloads
  isUpdate : context.verb = .update → ∃ changes, plan = .changes changes
  different : plan.rowKeys.Pairwise fun left right => left.coincides right = false

theorem prepareBatch_prepares {verb : BatchVerb} {request : Request} {input : BatchInput}
    (existing : verb ≠ .store)
    (prepared : endpoint.prepareBatch verb request input = .ok (context, plan)) :
    endpoint.Prepares context plan := by
  obtain ⟨checked, parameters, requested, force, _, _, rfl⟩ := prepareBatch_eq_ok prepared
  obtain ⟨isUpdate, different⟩ := BatchPlan.ofInput_rows existing checked
  refine ⟨rfl, rfl, existing, ?_, ?_, isUpdate, different⟩
  · rintro rfl
    exact (BatchPlan.ofInput_restore_eq_ok.mp checked).1
  · exact not_payloads existing checked

/-- The targets of a plan about existing rows are made of the entities that its keys find. -/
theorem targets_eq (endpoint : Endpoint (Memory × τ)) (context : BatchContext)
    (aboutRows : ∀ payloads, plan ≠ .payloads payloads) :
    endpoint.targets context plan =
      endpoint.fetchTargets context plan.rowKeys >>= fun entities =>
        pure (entities.map plan.aim) := by
  cases plan with
  | payloads payloads => exact absurd rfl (aboutRows payloads)
  | changes changes => rfl
  | keys keys => rfl

theorem Prepares.aims (prepares : endpoint.Prepares context plan) {entity : Entity}
    (copy : entity.CopyOf context.resource entry) :
    (plan.aim entity).Aims context (plan.payloadFor entry.1) entry := by
  cases plan with
  | payloads payloads => exact absurd rfl (prepares.aboutRows payloads)
  | changes changes =>
      exact ⟨copy, congrArg (BatchPlan.changesOf changes) copy.key, fun _ => rfl⟩
  | keys keys => exact ⟨copy, rfl, fun updates => nomatch prepares.isUpdate updates⟩

/-- The targets of a plan are about the rows that its keys reach. -/
theorem targets_aim (prepares : endpoint.Prepares context plan)
    (keyed : (memory.contents.table endpoint.resource.name).Keyed endpoint.resource.keyName)
    {targets : List BatchTarget} {after : Memory × τ}
    (done : (endpoint.targets context plan).perform (memory, side) = (.ok targets, after)) :
    after = (memory, side) ∧ (∀ key ∈ plan.rowKeys, Filter.isScalar key = true) ∧
      List.Forall₂ (fun entry target => target.Aims context (plan.payloadFor entry.1) entry)
        (endpoint.reached context.targetScope memory.contents plan.rowKeys) targets := by
  rw [targets_eq endpoint context prepares.aboutRows] at done
  obtain ⟨entities, middle, fetched, done⟩ := Action.perform_bind_eq_ok.mp done
  cases done
  obtain ⟨unchanged, scalars, copies⟩ :=
    fetchTargets_copies keyed prepares.isResource prepares.isScopes fetched
  refine ⟨unchanged, scalars, List.forall₂_map_right_iff.mpr (copies.imp fun entry entity copy => ?_)⟩
  rw [← prepares.isResource] at copy
  exact prepares.aims copy

/-- The key of a row that is reached is equal to itself, as it is equal to another key. -/
theorem key_of_mem_reached {trashed : TrashedScope} {contents : Contents} {keys : List Value}
    (areKeys : ∀ key ∈ keys, key.isKey = true)
    (member : entry ∈ endpoint.reached trashed contents keys) :
    entry.1.isKey = true ∧ entry.1.coincides entry.1 = true := by
  obtain ⟨_, _, key, isKey, meant⟩ := mem_reached member
  have entryKey := Value.isKey_of_coincides (areKeys key isKey) meant
  exact ⟨entryKey, Value.coincides_of_common entryKey entryKey (areKeys key isKey) meant meant⟩

/-- The targets of a plan about existing rows, when all of them are served. -/
theorem serveTargets_revises (grants : endpoint.binding.authorizer.GrantsAll)
    (prepares : endpoint.Prepares context plan)
    (keyed : (memory.contents.table endpoint.resource.name).Keyed endpoint.resource.keyName)
    {targets : List BatchTarget} {entities : List Entity} {contents : Contents}
    (aimed : (endpoint.targets context plan).Yields (memory, side) targets)
    (served : (targets.mapM (endpoint.serveTarget context)).perform (memory, side) =
      (.ok entities, ({ memory with contents }, side))) :
    endpoint.Revises context plan memory.contents contents entities := by
  obtain ⟨_, scalars, aims⟩ := targets_aim prepares keyed aimed
  have areKeys : ∀ key ∈ plan.rowKeys, key.isKey = true :=
    fun key isKey => Value.isKey_of_isScalar (scalars key isKey)
  have included : endpoint.reached context.targetScope memory.contents plan.rowKeys ⊆
      memory.contents.table endpoint.resource.name :=
    fun entry member => (mem_reached member).1
  have apart : Table.Apart (endpoint.reached context.targetScope memory.contents plan.rowKeys) :=
    apart_reached areKeys prepares.different
  rw [← prepares.isResource] at keyed included
  obtain ⟨kept, answers, _, same, differs, keyedAfter, intact, revised⟩ := serveTargets_revise grants
    prepares.existing prepares.trashable aims keyed included
    (fun entry => key_of_mem_reached areKeys) apart served
  cases same
  rw [prepares.isResource] at keyed included differs keyedAfter intact revised kept
  refine ⟨differs, ?_, scalars, keyedAfter, intact, answers⟩
  refine revised.trans ((keyed.foldl_revise included apart kept).trans ?_)
  refine List.filterMap_congr fun entry isEntry => ?_
  rw [any_reached keyed.toWellFiled areKeys isEntry]
  rfl

/-- What a batch on existing rows has done when it comes to an outcome. -/
theorem runBatch_revises {verb : BatchVerb} {request : Request} {input : BatchInput}
    {outcome : BatchOutcome} {after : Memory × τ}
    (silent : endpoint.binding.hooksFor verb = .silent)
    (grants : endpoint.binding.authorizer.GrantsAll) (existing : verb ≠ .store)
    (keyed : (memory.contents.table endpoint.resource.name).Keyed endpoint.resource.keyName)
    (done : (endpoint.runBatch verb request input).perform (memory, side) =
      (.ok outcome, after)) :
    ∃ context plan contents, endpoint.prepareBatch verb request input = .ok (context, plan) ∧
      outcome = ⟨outcome.entities, none, context.requested⟩ ∧
      after = ({ memory with contents }, side) ∧
      endpoint.Revises context plan memory.contents contents outcome.entities := by
  obtain ⟨context, plan, targets, entities, contents, prepared, _, aimed, served, rfl, rfl⟩ :=
    (runBatch_eq_ok silent grants).mp done
  have opened : (memory.opened.contents.table endpoint.resource.name).Keyed
      endpoint.resource.keyName := keyed
  have prepares := prepareBatch_prepares existing prepared
  exact ⟨context, plan, contents, prepared, rfl, rfl,
    serveTargets_revises grants prepares opened aimed served⟩

/-- A node whose key column was overwritten: it is found under the key that it holds, and nothing is
written there. -/
def renumberedNode : Memory where
  contents := { tables := [("nodes",
    [(.int 2, Samples.Library.nodeRow 9 "left" (.int 1) (.int 2))])] }

end Endpoint

end ResourceServer
