import ResourceServer.Proofs.Batch.Proceeding
import ResourceServer.Proofs.Belonging

/-!
# Updating

A batch that updates writes payloads over the rows that their keys reach, field by field, where a
field differs from what was read.  No other row is touched, and no other table.  Doing the same once
more changes nothing, and goes through when it only reads rows of the resource again.
-/

namespace ResourceServer

/-! ## Values -/

namespace Value

/-- No object in the value has two members of one name. -/
inductive Tidy : Value → Prop where
  | key {value : Value} (isKey : value.isKey = true) : Tidy value
  | list {items : List Value} (each : ∀ item ∈ items, Tidy item) : Tidy (.list items)
  | object {members : List (String × Value)} (named : (members.map Prod.fst).Nodup)
      (each : ∀ member ∈ members, Tidy member.2) : Tidy (.object members)

theorem tidy_list {items : List Value} :
    (Value.list items).Tidy ↔ ∀ item ∈ items, item.Tidy := by
  constructor
  · intro tidy
    cases tidy with
    | key isKey => cases isKey
    | list each => exact each
  · exact .list

theorem tidy_object {members : List (String × Value)} :
    (Value.object members).Tidy ↔
      (members.map Prod.fst).Nodup ∧ ∀ member ∈ members, member.2.Tidy := by
  constructor
  · intro tidy
    cases tidy with
    | key isKey => cases isKey
    | object named each => exact ⟨named, each⟩
  · rintro ⟨named, each⟩
    exact .object named each

theorem Tidy.coincides_symm {left right : Value} (leftTidy : left.Tidy) (rightTidy : right.Tidy)
    (coincide : left.coincides right = true) : right.coincides left = true := by
  induction leftTidy generalizing right with
  | key isKey => exact coincides_symm_of_isKey isKey coincide
  | @list items each induction =>
      obtain ⟨others, rfl, pairs⟩ := list_coincides.mp coincide
      have othersTidy := tidy_list.mp rightTidy
      have known := (List.forall₂_and_left _ _).mpr ⟨induction, pairs⟩
      have tidy := (List.forall₂_and_left _ _).mpr ⟨othersTidy, known.flip⟩
      refine list_coincides.mpr ⟨items, rfl, ?_⟩
      exact tidy.imp fun other item both => both.2.1 both.1 both.2.2
  | @object members named each induction =>
      obtain ⟨others, rfl, sameLength, pairs⟩ := object_coincides.mp coincide
      obtain ⟨othersNamed, othersTidy⟩ := tidy_object.mp rightTidy
      refine object_coincides.mpr ⟨members, rfl, sameLength.symm, ?_⟩
      intro other isOther
      have known := Entries.names_subset named sameLength
        (fun member found => (pairs member found).imp fun _ both => both.1)
        (List.mem_map_of_mem isOther)
      obtain ⟨member, isMember, sameName⟩ := List.mem_map.mp known
      obtain ⟨found, isFound, coincide⟩ := pairs member isMember
      rw [sameName, Entries.lookup_of_mem othersNamed isOther] at isFound
      cases isFound
      refine ⟨member.2, ?_, ?_⟩
      · rw [← sameName]
        exact Entries.lookup_of_mem named isMember
      · exact induction member isMember (othersTidy other isOther) coincide

/-- The values are equal, or one and the same. -/
def Agrees (left right : Value) : Prop := left = right ∨ left.same right = true

end Value

/-! ## Payloads written over rows -/

/-- A row is what it was with a payload written over it, as far as equal values are told apart. -/
structure Record.Updated (resource : Resource) (payload row after : Record) : Prop where
  values : ∀ name, (after.get name).Agrees ((row.merge payload).get name)
  names : (∀ name ∈ resource.columns, row.has name = true) → after.names = row.names

/-- A payload has values for columns other than the key. -/
def Resource.Accepts (resource : Resource) (payload : Record) : Prop :=
  ∀ field ∈ payload, field.1 ∈ resource.columns ∧ field.1 ≠ resource.keyName

section Revisions

variable {resource : Resource} {row payload : Record} {name : String} {value : Value}

/-- What a payload gives a name does not depend on the row that it is written over. -/
theorem Record.get_merge_of_has (given : payload.has name = true) (row other : Record) :
    (row.merge payload).get name = (other.merge payload).get name := by
  unfold merge
  induction payload generalizing row other with
  | nil => cases given
  | cons field rest induction =>
      rw [List.foldl_cons, List.foldl_cons]
      by_cases later : has rest name = true
      · exact induction later _ _
      · have isName : field.1 = name := by
          rw [has, List.any_cons, Bool.or_eq_true] at given
          exact eq_of_beq (given.resolve_right later)
        refine get_merge_congr ?_
        rw [get_set, get_set, if_pos isName.symm, if_pos isName.symm]

theorem Record.mem_iff_get {record : Record} (distinct : record.names.Nodup)
    (present : record.has name = true) : (name, value) ∈ record ↔ value = record.get name := by
  rw [has_iff_get?] at present
  obtain ⟨held, isHeld⟩ := present
  rw [get_eq_of_get? isHeld]
  constructor
  · intro member
    cases isHeld.symm.trans (Entries.lookup_of_mem distinct member)
    rfl
  · rintro rfl
    exact Entries.mem_of_lookup isHeld

/-- The columns to be written are those in which the payload differs from the row. -/
theorem Resource.mem_revisions :
    (name, value) ∈ resource.revisions row payload ↔
      name ∈ resource.columns ∧ name ≠ resource.keyName ∧
        value = (row.merge payload).get name ∧ (row.get name).same value = false := by
  unfold revisions
  dsimp only
  rw [List.mem_filter, Bool.and_eq_true, Bool.and_eq_true, List.contains_iff_mem, bne_iff_ne,
    Bool.not_eq_true']
  have distinct : ((row.project (distinctNames resource.columns)).merge payload).names.Nodup := by
    refine Record.nodup_names_merge ?_
    rw [Record.names_project]
    exact nodup_distinctNames _
  have onColumns : name ∈ resource.columns →
      ((name, value) ∈ (row.project (distinctNames resource.columns)).merge payload ↔
        value = (row.merge payload).get name) ∧
      (row.project (distinctNames resource.columns)).get name = row.get name := by
    intro isColumn
    have isRead := mem_distinctNames.mpr isColumn
    have sameRead : (row.project (distinctNames resource.columns)).get name = row.get name :=
      Record.get_project isRead
    refine ⟨?_, sameRead⟩
    rw [Record.mem_iff_get distinct (Record.has_merge (Record.has_project.mpr isRead)),
      Record.get_merge_congr sameRead]
  constructor
  · rintro ⟨member, ⟨isColumn, notKey⟩, differs⟩
    obtain ⟨isValue, sameRead⟩ := onColumns isColumn
    rw [sameRead] at differs
    exact ⟨isColumn, notKey, isValue.mp member, differs⟩
  · rintro ⟨isColumn, notKey, isValue, differs⟩
    obtain ⟨isMember, sameRead⟩ := onColumns isColumn
    rw [sameRead]
    exact ⟨isMember.mpr isValue, ⟨isColumn, notKey⟩, differs⟩

/-- A column has the value of the payload after it was written, and is left alone where that is
equal to the value that it has. -/
theorem Resource.get_revised (resource : Resource) (row payload : Record) (name : String) :
    (row.merge (resource.revisions row payload)).get name = (row.merge payload).get name ∨
      (row.merge (resource.revisions row payload)).get name = row.get name ∧
        (name ∈ resource.columns → name ≠ resource.keyName →
          (row.get name).same ((row.merge payload).get name) = true) := by
  by_cases written : (resource.revisions row payload).has name = true
  · obtain ⟨⟨_, value⟩, isChange, rfl, isWritten⟩ := Record.exists_of_has_merge row written
    left
    rw [isWritten]
    exact (mem_revisions.mp isChange).2.2.1
  · right
    refine ⟨Record.get_merge_other (Bool.eq_false_of_not_eq_true written), ?_⟩
    intro isColumn notKey
    by_contra differs
    rw [Bool.not_eq_true] at differs
    have isChange : (name, (row.merge payload).get name) ∈ resource.revisions row payload :=
      mem_revisions.mpr ⟨isColumn, notKey, rfl, differs⟩
    exact written (Record.has_eq_true.mpr (List.mem_map.mpr ⟨_, isChange, rfl⟩))

theorem Resource.Accepts.updated (accepts : resource.Accepts payload) :
    Record.Updated resource payload row (row.merge (resource.revisions row payload)) := by
  refine ⟨fun name => ?_, fun complete => Record.names_merge_of_has fun change isChange => ?_⟩
  · obtain written | ⟨stays, same⟩ := resource.get_revised row payload name
    · exact .inl written
    · rw [stays]
      by_cases given : payload.has name = true
      · obtain ⟨field, isField, rfl⟩ := List.mem_map.mp (Record.has_eq_true.mp given)
        obtain ⟨isColumn, notKey⟩ := accepts field isField
        exact .inr (same isColumn notKey)
      · exact .inl (Record.get_merge_other (Bool.eq_false_of_not_eq_true given)).symm
  · exact complete change.1 (Resource.mem_revisions.mp isChange).1

/-- To write a payload over a row once more leaves the row as it is. -/
theorem Resource.merge_revisions_again (distinct : row.names.Nodup) :
    let revised := row.merge (resource.revisions row payload)
    revised.merge (resource.revisions revised payload) = revised := by
  intro revised
  refine Record.merge_self (Record.nodup_names_merge distinct) fun change isChange => ?_
  obtain ⟨name, value⟩ := change
  obtain ⟨isColumn, notKey, isValue, differs⟩ := Resource.mem_revisions.mp isChange
  have isWritten : value = revised.get name := by
    by_cases given : payload.has name = true
    · rw [Record.get_merge_of_has given revised row] at isValue
      obtain written | ⟨stays, same⟩ := resource.get_revised row payload name
      · rw [isValue, written]
      · rw [stays, isValue, same isColumn notKey] at differs
        cases differs
    · rw [isValue]
      exact Record.get_merge_other (Bool.eq_false_of_not_eq_true given)
  have present : revised.has name = true := by
    by_contra absent
    rw [isWritten, Record.get_eq_null (Bool.eq_false_of_not_eq_true absent)] at differs
    cases differs
  rw [isWritten]
  exact Record.get?_eq_of_has present

end Revisions

/-- The values of the columns that may not repeat are tidy. -/
def Table.TidyIn (resource : Resource) (table : Table) : Prop :=
  ∀ entry ∈ table, ∀ columns, resource.model.DemandsUnique columns → ∀ name ∈ columns,
    (Record.get entry.2 name).Tidy

/-- A row of an intact table passes the check for unique values. -/
theorem Table.Intact.checkUnique {resource : Resource} {table : Table}
    (intact : table.Intact resource) (tidy : table.TidyIn resource)
    {entry : Value × Record} (isEntry : entry ∈ table) (self : entry.1.same entry.1 = true) :
    Contents.checkUnique resource table entry.1 entry.2 = .ok () := by
  rw [Contents.checkUnique_eq_ok, Contents.repeated?, List.find?_eq_none]
  intro columns isSet repeats
  have demands := Model.mem_uniqueColumnSets.mp isSet
  dsimp only at repeats
  rw [Bool.and_eq_true, Bool.not_eq_true', List.any_eq_false, List.any_eq_true] at repeats
  obtain ⟨noNull, other, isOther, repeats⟩ := repeats
  rw [Bool.and_eq_true, Bool.not_eq_true', Value.sameItems_eq_true, List.forall₂_map_left_iff,
    List.forall₂_map_right_iff, List.forall₂_same] at repeats
  obtain ⟨apart, pairs⟩ := repeats
  have different : other ≠ entry := by
    rintro rfl
    rw [self] at apart
    cases apart
  have symmetric : Std.Symm fun left right : Value × Record =>
      ∀ columns, resource.model.DemandsUnique columns → ¬left.2.Repeats columns right.2 :=
    ⟨fun _ _ unrepeated columns demands repeats => unrepeated columns demands repeats.symm⟩
  refine intact.unique.forall isOther isEntry different columns demands fun name isColumn => ?_
  have coincide := pairs name isColumn
  have notNull : Record.get entry.2 name ≠ .null := fun isNull =>
    noNull _ (List.mem_map_of_mem isColumn) (Value.isNull_iff.mpr isNull)
  have back := (tidy other isOther columns demands name isColumn).coincides_symm
    (tidy entry isEntry columns demands name isColumn) coincide
  refine ⟨fun isNull => ?_, notNull, coincide, back⟩
  rw [isNull] at coincide
  exact notNull (Value.null_coincides.mp coincide)

/-! ## Batches -/

theorem Resource.readPayload_accepts {resource : Resource} {schema : Option PayloadSchema}
    {isPartial : Bool} {input : Value} {payload : Record} (fillable : resource.fillable = none)
    (read : resource.readPayload schema isPartial input = .ok payload) :
    resource.Accepts payload := by
  intro field isField
  have isFillable := Resource.fillable_of_readPayload read field isField
  rw [fillableFields, fillable] at isFillable
  obtain ⟨isColumn, kept⟩ := List.mem_filter.mp isFillable
  rw [Bool.and_eq_true, bne_iff_ne] at kept
  exact ⟨isColumn, kept.1⟩

/-- The payload that is mentioned last for a key is one that was read, or there is none. -/
theorem BatchPlan.changesOf_accepts {resource : Resource} {mentions : List (Value × Record)}
    (accepts : ∀ mention ∈ mentions, resource.Accepts mention.2) (key : Value) :
    resource.Accepts (changesOf mentions.reverse key) := by
  unfold changesOf
  cases found : mentions.reverse.find? fun entry => entry.1.coincides key with
  | none => exact nofun
  | some mention => exact accepts mention (List.mem_reverse.mp (List.mem_of_find?_eq_some found))

namespace Endpoint

variable {τ : Type} {endpoint : Endpoint (Memory × τ)} {request : Request} {input : BatchInput}
variable {context : BatchContext} {plan : BatchPlan} {memory : Memory} {side : τ}
variable {mentions : List (Value × Record)} {before after : Contents} {entities : List Entity}

/-- An entry after the payloads of a plan were written over the rows that its keys reach. -/
def revised (endpoint : Endpoint (Memory × τ)) (context : BatchContext) (plan : BatchPlan)
    (entry : Value × Record) : Value × Record :=
  if endpoint.hits context.targetScope plan.rowKeys entry then
    (entry.1, Record.merge entry.2
      (endpoint.resource.revisions entry.2 (plan.payloadFor entry.1)))
  else entry

@[simp]
theorem key_revised (entry : Value × Record) : (endpoint.revised context plan entry).1 = entry.1 := by
  unfold revised
  split
  · rfl
  · rfl

theorem change_update (isUpdate : context.verb = .update)
    (isResource : context.resource = endpoint.resource) (entry : Value × Record) :
    endpoint.change context plan entry = some (Record.merge entry.2
      (endpoint.resource.revisions entry.2 (plan.payloadFor entry.1))) := by
  rw [change, BatchContext.fate, BatchContext.readsBack, BatchContext.changes, isUpdate, isResource]
  rfl

namespace Revises

theorem rows_updated (revises : endpoint.Revises context plan before after entities)
    (isUpdate : context.verb = .update) (isResource : context.resource = endpoint.resource) :
    after.table endpoint.resource.name =
      (before.table endpoint.resource.name).map (endpoint.revised context plan) := by
  rw [revises.rows, ← List.filterMap_eq_map]
  refine List.filterMap_congr fun entry _ => ?_
  rw [Function.comp_apply, revised, change_update isUpdate isResource]
  split
  · rfl
  · rfl

/-- A row that is reached after an update was reached before, and takes the same payload without a
change. -/
theorem settled (revises : endpoint.Revises context plan before after entities)
    (isUpdate : context.verb = .update) (isResource : context.resource = endpoint.resource)
    (named : ∀ entry ∈ before.table endpoint.resource.name, entry.2.names.Nodup)
    {entry : Value × Record} (isEntry : entry ∈ after.table endpoint.resource.name)
    (hit : endpoint.hits context.targetScope plan.rowKeys entry = true) :
    Record.merge entry.2 (endpoint.resource.revisions entry.2 (plan.payloadFor entry.1)) =
      entry.2 := by
  rw [revises.rows_updated isUpdate isResource] at isEntry
  obtain ⟨old, isOld, rfl⟩ := List.mem_map.mp isEntry
  rw [key_revised]
  unfold revised at hit ⊢
  split
  · exact Resource.merge_revisions_again (named old isOld)
  · rename_i missed
    rw [if_neg missed] at hit
    exact absurd hit missed

/-- To do the same once more changes nothing. -/
theorem again {last : Contents} {others : List Entity}
    (revises : endpoint.Revises context plan before after entities)
    (repeats : endpoint.Revises context plan after last others)
    (isUpdate : context.verb = .update) (isResource : context.resource = endpoint.resource)
    (named : ∀ entry ∈ before.table endpoint.resource.name, entry.2.names.Nodup) :
    last = after := by
  refine repeats.differs.eq_of_table ?_
  rw [repeats.rows_updated isUpdate isResource]
  refine (List.map_congr_left fun entry isEntry => ?_).trans (List.map_id _)
  rw [revised]
  split
  · rename_i hit
    rw [revises.settled isUpdate isResource named isEntry hit]
    rfl
  · rfl

/-- The keys of the rows that are reached after an update have a common order when those of the
rows that were reached before have one. -/
theorem sortable (revises : endpoint.Revises context plan before after entities)
    (isUpdate : context.verb = .update) (isResource : context.resource = endpoint.resource)
    (sortable : ((before.table endpoint.resource.name).filter
      (endpoint.hits context.targetScope plan.rowKeys)).Pairwise
        fun left right => left.1.isSortableWith right.1 = true) :
    ((after.table endpoint.resource.name).filter
      (endpoint.hits context.targetScope plan.rowKeys)).Pairwise
        fun left right => left.1.isSortableWith right.1 = true := by
  rw [revises.rows_updated isUpdate isResource, List.filter_map, List.pairwise_map]
  simp only [key_revised]
  refine sortable.sublist (List.monotone_filter_right _ fun entry hit => ?_)
  by_contra missed
  rw [Function.comp_apply, revised, if_neg missed] at hit
  exact missed hit

end Revises

/-- Payloads were written over exactly the rows that keys reach, the one that is mentioned last for
each of them, and nothing else was changed.  The answer has one entity for each of these rows, in
the order in which their keys are mentioned first. -/
structure Updates (endpoint : Endpoint (Memory × τ)) (context : BatchContext)
    (mentions : List (Value × Record)) (before after : Contents) (entities : List Entity) :
    Prop where
  differs : before.DiffersAt endpoint.resource.name after
  rows : List.Forall₂ (fun entry changed => changed.1 = entry.1 ∧
      if endpoint.hits context.parameters.trashed (mentions.map Prod.fst) entry then
        Record.Updated endpoint.resource (BatchPlan.changesOf mentions.reverse entry.1) entry.2
          changed.2
      else changed.2 = entry.2)
    (before.table endpoint.resource.name) (after.table endpoint.resource.name)
  once : (endpoint.reached context.parameters.trashed before
      (Value.distinct (mentions.map Prod.fst))).Perm
    ((before.table endpoint.resource.name).filter
      (endpoint.hits context.parameters.trashed (mentions.map Prod.fst)))
  answers : List.Forall₂ (fun entry entity => ∃ row spec,
      (entry.1, row) ∈ after.table endpoint.resource.name ∧ context.freshQuery = .ok spec ∧
        entity.Presents spec (entry.1, row) ∧ entity.wasRecentlyCreated = false)
    (endpoint.reached context.parameters.trashed before
      (Value.distinct (mentions.map Prod.fst))) entities

theorem Revises.updates
    (revises : endpoint.Revises context (.changes (mentions.foldl BatchPlan.put [])) before after
      entities)
    (keyed : (before.table endpoint.resource.name).Keyed endpoint.resource.keyName)
    (isUpdate : context.verb = .update) (isResource : context.resource = endpoint.resource)
    (areKeys : ∀ mention ∈ mentions, mention.1.isKey = true)
    (accepts : ∀ mention ∈ mentions, endpoint.resource.Accepts mention.2) :
    endpoint.Updates context mentions before after entities := by
  have mentionKeys : ∀ key ∈ mentions.map Prod.fst, key.isKey = true :=
    List.forall_mem_map.mpr areKeys
  have sameKeys : BatchPlan.rowKeys (.changes (mentions.foldl BatchPlan.put [])) =
      Value.distinct (mentions.map Prod.fst) := BatchPlan.keys_mentions areKeys
  have sameScope : context.targetScope = context.parameters.trashed := by
    rw [BatchContext.targetScope, isUpdate]
  have rows := revises.rows_updated isUpdate isResource
  have answers := revises.answers
  have distinctKeys : ∀ key ∈ Value.distinct (mentions.map Prod.fst), key.isKey = true :=
    fun key isKey => mentionKeys key (Value.mem_of_mem_distinct isKey)
  rw [sameKeys, sameScope] at answers
  refine ⟨revises.differs, ?_, ?_, ?_⟩
  · rw [rows, List.forall₂_map_right_iff, List.forall₂_same]
    intro entry isEntry
    refine ⟨key_revised entry, ?_⟩
    rw [revised, sameKeys, sameScope, hits_distinct mentionKeys]
    split
    · rename_i hit
      rw [hits, Bool.and_eq_true] at hit
      obtain ⟨key, isKey, meant⟩ := List.any_eq_true.mp hit.1
      have entryKey := Value.isKey_of_coincides (mentionKeys key isKey) meant
      have samePayload : BatchPlan.payloadFor (.changes (mentions.foldl BatchPlan.put [])) entry.1 =
          BatchPlan.changesOf mentions.reverse entry.1 :=
        BatchPlan.changesOf_mentions areKeys entryKey
      rw [samePayload]
      exact (BatchPlan.changesOf_accepts accepts entry.1).updated
    · rfl
  · rw [← hits_distinct mentionKeys]
    exact reached_perm keyed.toWellFiled distinctKeys (Value.pairwise_distinct mentionKeys)
  · have reachedHits : ∀ entry ∈ endpoint.reached context.parameters.trashed before
        (Value.distinct (mentions.map Prod.fst)), entry ∈ before.table endpoint.resource.name ∧
          endpoint.hits context.parameters.trashed
            (Value.distinct (mentions.map Prod.fst)) entry = true :=
      fun entry member => ⟨(mem_reached member).1, hits_of_mem_reached member⟩
    refine (List.forall₂_and_left _ _).mpr ⟨reachedHits, answers⟩ |>.imp ?_
    rintro entry entity ⟨⟨isEntry, hit⟩, answer⟩
    rw [change_update isUpdate isResource] at answer
    cases answer with
    | written built presents existing =>
        refine ⟨_, _, ?_, built, presents, existing⟩
        rw [rows]
        refine List.mem_map.mpr ⟨entry, isEntry, ?_⟩
        rw [revised, sameKeys, sameScope, if_pos hit]

theorem prepareBatch_update
    (prepared : endpoint.prepareBatch .update request input = .ok (context, plan)) :
    context.verb = .update ∧ context.resource = endpoint.resource ∧
      (∀ aggregate ∈ context.parameters.aggregates,
        aggregate.relation ∈ endpoint.resource.aggregates) ∧
      ∃ entries mentions, input.entries? = some entries ∧
        entries.mapM (BatchPlan.readMention endpoint.resource endpoint.binding.updatePayload) =
          .ok mentions ∧
        (∀ mention ∈ mentions, mention.1.isKey = true) ∧
        plan = .changes (mentions.foldl BatchPlan.put []) := by
  obtain ⟨checked, parameters, requested, force, read, _, rfl⟩ := prepareBatch_eq_ok prepared
  exact ⟨rfl, rfl, (QueryParameters.ofRequest_names read).2,
    BatchPlan.ofInput_update_eq_ok.mp checked⟩

/-- A batch that has updated rows, and asks for no relations, goes through once more. -/
theorem runBatch_updates_again {contents : Contents}
    (silent : endpoint.binding.hooksFor .update = .silent)
    (grants : endpoint.binding.authorizer.GrantsAll) (noneOpen : memory.snapshot = none)
    (prepared : endpoint.prepareBatch .update request input = .ok (context, plan))
    (checked : endpoint.registry.Checked endpoint.resource) (unrelated : context.requested = [])
    (sound : ∀ scope ∈ endpoint.scopes, ∀ row, ∃ holds, scope.evaluate row = .ok holds)
    (keyed : (memory.contents.table endpoint.resource.name).Keyed endpoint.resource.keyName)
    (named : ∀ entry ∈ memory.contents.table endpoint.resource.name, entry.2.names.Nodup)
    (intact : (memory.contents.table endpoint.resource.name).Intact endpoint.resource)
    (tidy : (contents.table endpoint.resource.name).TidyIn endpoint.resource)
    (ownKeys : ∀ entry ∈ contents.table endpoint.resource.name, entry.1.same entry.1 = true)
    {targets : List BatchTarget}
    (aimed : (endpoint.targets context plan).Yields (memory.opened, side) targets)
    (revises : endpoint.Revises context plan memory.contents contents entities) :
    ∃ outcome last, (endpoint.runBatch .update request input).perform
      ({ memory with contents }, side) =
        (.ok outcome, ({ memory with contents := last }, side)) := by
  obtain ⟨isUpdate, isResource, declared, _⟩ := prepareBatch_update prepared
  have existing : BatchVerb.update ≠ .store := nofun
  have prepares := prepareBatch_prepares existing prepared
  have evaluates : ∀ row, endpoint.Evaluates context.targetScope row :=
    fun row => evaluates_of_scopes fun scope isScope => sound scope isScope row
  have keeps : context.readsBack = true := by
    rw [BatchContext.readsBack, isUpdate]
    rfl
  have opened : (memory.opened.contents.table endpoint.resource.name).Keyed
    endpoint.resource.keyName := keyed
  have sortable := sortable_of_targets prepares opened (fun entry _ => evaluates entry.2) aimed
  rw [← isResource] at declared checked
  refine runBatch_goes silent grants existing noneOpen prepared (isResource ▸ checked.key)
    revises.keyed (readsBack_bare checked keeps unrelated declared) revises.scalars
    (fun entry _ => evaluates entry.2) (revises.sortable isUpdate isResource sortable) ?_
  intro entry isReached
  have isEntry := (mem_reached isReached).1
  have hit := hits_of_mem_reached isReached
  -- The row would be written as it is.
  have settled : Record.merge entry.2
      (context.changes endpoint.now (plan.payloadFor entry.1) entry.2) = entry.2 := by
    rw [BatchContext.changes, isUpdate, isResource]
    exact revises.settled isUpdate isResource named isEntry hit
  refine ⟨?_, ?_, ?_, ?_⟩
  · rw [settled, isResource]
    exact revises.keyed.filed entry isEntry
  · intro columns _ name _
    rw [settled]
  · rw [isResource]
    exact .inr ((revises.intact intact).checkUnique tidy isEntry (ownKeys entry isEntry))
  · have reaches := (mem_reached isReached).2.1
    rw [reaches_eq_true, BatchContext.targetScope, isUpdate] at reaches
    rw [settled, BatchContext.freshScope, isUpdate, isResource]
    exact reaches.1

/-- An update writes the payloads over the rows that their keys reach, and does nothing else.  To
repeat it changes nothing, and goes through when nothing but rows of the resource is read. -/
theorem update_merges {outcome : BatchOutcome} {after : Memory × τ}
    (silent : endpoint.binding.hooksFor .update = .silent)
    (grants : endpoint.binding.authorizer.GrantsAll) (fillable : endpoint.resource.fillable = none)
    (keyed : (memory.contents.table endpoint.resource.name).Keyed endpoint.resource.keyName)
    (done : (endpoint.runBatch .update request input).perform (memory, side) =
      (.ok outcome, after)) :
    ∃ context entries mentions contents, input.entries? = some entries ∧
      entries.mapM (BatchPlan.readMention endpoint.resource endpoint.binding.updatePayload) =
        .ok mentions ∧
      endpoint.prepareBatch .update request input =
        .ok (context, .changes (mentions.foldl BatchPlan.put [])) ∧
      outcome = ⟨outcome.entities, none, context.requested⟩ ∧
      after = ({ memory with contents }, side) ∧
      endpoint.Updates context mentions memory.contents contents outcome.entities ∧
      ((∀ entry ∈ memory.contents.table endpoint.resource.name, entry.2.names.Nodup) →
        (∀ result last, (endpoint.runBatch .update request input).perform after = (result, last) →
          last = after) ∧
        (endpoint.registry.validate = .ok () → endpoint.resource ∈ endpoint.registry.resources →
          context.requested = [] →
          (∀ scope ∈ endpoint.scopes, ∀ row, ∃ holds, scope.evaluate row = .ok holds) →
          (memory.contents.table endpoint.resource.name).Intact endpoint.resource →
          (contents.table endpoint.resource.name).TidyIn endpoint.resource →
          (∀ entry ∈ contents.table endpoint.resource.name, entry.1.same entry.1 = true) →
          ∃ again, (endpoint.runBatch .update request input).perform after = (.ok again, after))) := by
  obtain ⟨context, plan, targets, entities, contents, prepared, noneOpen, aimed, served, rfl, rfl⟩ :=
    (runBatch_eq_ok silent grants).mp done
  have existing : BatchVerb.update ≠ .store := nofun
  obtain ⟨isUpdate, isResource, _, entries, mentions, isEntries, read, areKeys, rfl⟩ :=
    prepareBatch_update prepared
  have accepts : ∀ mention ∈ mentions, endpoint.resource.Accepts mention.2 := by
    intro mention isMention
    obtain ⟨entry, _, wasRead⟩ := exists_of_mem_mapM read isMention
    obtain ⟨key, _, wasRead⟩ := bind_eq_ok.mp wasRead
    obtain ⟨payload, payloadRead, wasRead⟩ := bind_eq_ok.mp wasRead
    cases wasRead
    exact Resource.readPayload_accepts fillable payloadRead
  have opened : (memory.opened.contents.table endpoint.resource.name).Keyed
    endpoint.resource.keyName := keyed
  have revises := serveTargets_revises grants (prepareBatch_prepares existing prepared) opened aimed
    served
  refine ⟨context, entries, mentions, contents, isEntries, read, prepared, rfl, rfl,
    revises.updates keyed isUpdate isResource areKeys accepts, fun named => ?_⟩
  have unchanged : ∀ result last, (endpoint.runBatch .update request input).perform
      ({ memory with contents }, side) = (result, last) →
        last = ({ memory with contents }, side) := by
    intro result last again
    cases result with
    | error error => exact runBatch_eq_error silent grants again
    | ok other =>
        obtain ⟨sameContext, samePlan, final, preparedAgain, _, rfl, repeats⟩ :=
          runBatch_revises silent grants existing revises.keyed again
        cases prepared.symm.trans preparedAgain
        rw [revises.again repeats isUpdate isResource named]
  refine ⟨unchanged, ?_⟩
  intro valid registered unrelated sound intact tidy ownKeys
  obtain ⟨again, last, goes⟩ := runBatch_updates_again silent grants noneOpen prepared
    (Registry.checked valid registered) unrelated sound keyed named intact tidy ownKeys aimed revises
  have isAfter := unchanged _ _ goes
  rw [isAfter] at goes
  exact ⟨again, goes⟩

/-- Two mentions of the second node, and one of a node that is missing. -/
def secondNode : BatchInput := .given (.object [("2", .object [("name", .text "other")]),
  (" 2", .object [("rank", .int 7)]), ("9", .object [("name", .text "none")])])

set_option maxRecDepth 10000 in
theorem update_merges_tree : ∃ context mentions outcome contents,
    (treeEndpoint.runBatch .update {} secondNode).perform (Store.treeNodes, ()) =
      (.ok outcome, ({ Store.treeNodes with contents }, ())) ∧
    treeEndpoint.Updates context mentions Store.treeNodes.contents contents outcome.entities ∧
    ∃ again, (treeEndpoint.runBatch .update {} secondNode).perform
      ({ Store.treeNodes with contents }, ()) =
        (.ok again, ({ Store.treeNodes with contents }, ())) := by
  have keyed : Table.Keyed "id" (Store.treeNodes.contents.table "nodes") :=
    RelationEndpoint.treeNodes_keyed
  have noneUnique : Samples.Library.node.uniqueColumnSets = [] := by
    with_unfolding_all rfl
  have notDemanded : ∀ columns, ¬Samples.Library.node.DemandsUnique columns := by
    intro columns demands
    have isSet := Model.mem_uniqueColumnSets.mpr demands
    rw [noneUnique] at isSet
    cases isSet
  have intact : Table.Intact Samples.Library.nodes (Store.treeNodes.contents.table "nodes") := by
    refine ⟨by decide +kernel, by decide +kernel, ?_, fun _ => keyed.filed⟩
    exact List.pairwise_of_forall fun _ _ columns demands => absurd demands (notDemanded columns)
  have returns : ((treeEndpoint.runBatch .update {} secondNode).perform
      (Store.treeNodes, ())).1.isOk = true := by
    decide +kernel
  have unrelated : treeEndpoint.readRelations {} = .ok [] := by
    with_unfolding_all rfl
  cases ran : (treeEndpoint.runBatch .update {} secondNode).perform (Store.treeNodes, ()) with
  | mk result after =>
      rw [ran] at returns
      cases result with
      | error error => cases returns
      | ok outcome =>
          obtain ⟨context, entries, mentions, contents, _, _, prepared, _, rfl, updates, repeats⟩ :=
            update_merges rfl
              (show treeEndpoint.binding.authorizer.GrantsAll from Authorizer.allowAll_grantsAll) rfl
              (show (Store.treeNodes.contents.table treeEndpoint.resource.name).Keyed _ from keyed)
              ran
          obtain ⟨_, _, requested, _, _, asked, isContext⟩ := prepareBatch_eq_ok prepared
          have noRelations : context.requested = [] := by
            cases unrelated.symm.trans asked
            rw [isContext]
          have ownKeys : ∀ entry ∈ contents.table "nodes", entry.1.same entry.1 = true := by
            intro entry isEntry
            obtain ⟨old, isOld, sameKey, _⟩ := exists_of_mem_right updates.rows isEntry
            have same : ∀ entry ∈ Store.treeNodes.contents.table "nodes",
                entry.1.same entry.1 = true := by
              decide +kernel
            rw [sameKey]
            exact same old isOld
          refine ⟨context, mentions, outcome, contents, rfl, updates, ?_⟩
          exact (repeats (by decide +kernel)).2 rfl List.mem_cons_self noRelations
            nofun intact
            (fun entry isEntry columns demands => absurd demands (notDemanded columns)) ownKeys

/-! ## Where a row is missed, or related rows are read -/

/-- A row is not updated that is found under the key that it holds but filed under another one. -/
theorem renumbered_missed : ∃ outcome after,
    (nodeEndpoint.runBatch .update {} (.given (.object [("9", .object [("name", .text "x")])]))).perform
        (renumberedNode, ()) = (.ok outcome, after) ∧
      (after.1.contents.table "nodes").rows.all (fun row =>
        (row.get "id").coincides (.int 9) && (row.get "name").same (.text "left")) = true := by
  have passes : (nodeEndpoint.runBatch .update {}
      (.given (.object [("9", .object [("name", .text "x")])]))).comesTo (renumberedNode, ())
      (fun _ after => (after.1.contents.table "nodes").rows.all fun row =>
        (row.get "id").coincides (.int 9) && (row.get "name").same (.text "left")) = true := by
    decide +kernel
  exact Action.comesTo_eq_true.mp passes

/-- A node without relations of its own. -/
def smallNode (number : Int) (name : String) (parent : Value) : Value × Record :=
  (.int number, Samples.Library.nodeRow number name parent .null)

/-- A node under a text, below the first one of the other nodes. -/
def oddNode : Value × Record :=
  (.text "x", [("id", .text "x"), ("name", .text "c"), ("parent_id", .int 1), ("rank", .null)])

def family : Memory where
  contents := { tables := [("nodes", [smallNode 1 "a" .null, smallNode 2 "b" .null, oddNode])] }

/-- The same nodes after the second one was put below the first one. -/
def adopted : Memory where
  contents := { tables := [("nodes", [smallNode 1 "z" .null, smallNode 2 "b" (.int 1), oddNode])] }

def adoption : BatchInput := .given (.object [("1", .object [("name", .text "z")]),
  ("2", .object [("parent_id", .int 1)])])

def adoptionPlan : BatchPlan :=
  .changes [(.int 1, [("name", .text "z")]), (.int 2, [("parent_id", .int 1)])]

def adoptionContext : BatchContext where
  verb := .update
  resource := Samples.Library.nodes
  request := withChildren
  parameters := {}
  requested := [{ path := "children" }]
  force := false
  scopes := []
  attributes := []

/-- The query for the two nodes with their children. -/
def bothNodes : QuerySpec :=
  .targets Samples.Library.nodes .without [{ path := "children" }] [] [.int 1, .int 2]

/-- The rows of the two nodes are in order already. -/
theorem fetchRows_bothNodes {contents : Contents} {name : String} {parent : Value}
    (tables : contents.table "nodes" =
      [smallNode 1 name .null, smallNode 2 "b" parent, oddNode]) :
    contents.fetchRows treeEndpoint.registry bothNodes none none =
      .ok [(smallNode 1 name .null).2, (smallNode 2 "b" parent).2] := by
  have selection : Contents.selectRows treeEndpoint.registry contents bothNodes
      (contents.table "nodes").rows =
        .ok [(smallNode 1 name .null).2, (smallNode 2 "b" parent).2] := by
    rw [tables]
    with_unfolding_all rfl
  have inOrder : [(smallNode 1 name .null).2, (smallNode 2 "b" parent).2].mergeSort
      (Record.inOrder "id" .ascending) =
        [(smallNode 1 name .null).2, (smallNode 2 "b" parent).2] :=
    List.mergeSort_of_pairwise (List.pairwise_pair.mpr rfl)
  have sorting : Record.sortBy "id" .ascending
      [(smallNode 1 name .null).2, (smallNode 2 "b" parent).2] =
        .ok [(smallNode 1 name .null).2, (smallNode 2 "b" parent).2] :=
    congrArg Except.ok inOrder
  refine Contents.fetchRows_eq_ok.mpr ⟨_, _, _, selection, ?_, sorting, rfl, ?_⟩
  · exact List.forall_mem_cons.mpr ⟨rfl, List.forall_mem_singleton.mpr rfl⟩
  · with_unfolding_all rfl

theorem prepareBatch_adoption : treeEndpoint.prepareBatch .update withChildren adoption =
    .ok (adoptionContext, adoptionPlan) := by
  with_unfolding_all rfl

/-- What is found of the two nodes to begin with. -/
def foundNodes : List Entity :=
  (((Store.hydrate treeEndpoint.registry bothNodes
    [(smallNode 1 "a" .null).2, (smallNode 2 "b" .null).2]).perform
      (family.opened, ())).1.toOption).getD []

def adoptionTargets : List BatchTarget :=
  ([Value.int 1, .int 2].filterMap fun key =>
    (foundNodes.filter fun entity => entity.key.coincides key).getLast?).map fun entity =>
      ⟨entity, adoptionPlan.payloadFor entity.key, entity.attributes⟩

theorem adoption_aimed : (treeEndpoint.targets adoptionContext adoptionPlan).Yields
    (family.opened, ()) adoptionTargets := by
  have hydrated : (Store.hydrate treeEndpoint.registry bothNodes
      [(smallNode 1 "a" .null).2, (smallNode 2 "b" .null).2]).Yields (family.opened, ())
        foundNodes := by
    with_unfolding_all rfl
  have got : (Store.get treeEndpoint.registry bothNodes).Yields (family.opened, ()) foundNodes :=
    (Memory.yields_fetchRows.mpr (fetchRows_bothNodes rfl)).bind hydrated
  have fetched : (treeEndpoint.fetchTargets adoptionContext [.int 1, .int 2]).Yields
      (family.opened, ()) ([Value.int 1, .int 2].filterMap fun key =>
        (foundNodes.filter fun entity => entity.key.coincides key).getLast?) := by
    change (treeEndpoint.fetchTargets adoptionContext [.int 1, .int 2]).perform _ = _
    unfold fetchTargets
    rw [QuerySpec.ofKeys_targets.mpr ⟨by decide, rfl⟩]
    exact got.bind rfl
  exact fetched.bind rfl

theorem adoption_done : ∃ outcome,
    (treeEndpoint.runBatch .update withChildren adoption).perform (family, ()) =
      (.ok outcome, (adopted, ())) := by
  have served : (adoptionTargets.mapM (treeEndpoint.serveTarget adoptionContext)).perform
      (family.opened, ()) =
        (.ok (((adoptionTargets.mapM (treeEndpoint.serveTarget adoptionContext)).perform
          (family.opened, ())).1.toOption.getD []),
            ({ family.opened with contents := adopted.contents }, ())) := by
    with_unfolding_all rfl
  exact ⟨_, (runBatch_eq_ok rfl Authorizer.allowAll_grantsAll).mpr ⟨_, _, _, _, _,
    prepareBatch_adoption, rfl, adoption_aimed, served, rfl, rfl⟩⟩

/-- The first node has children without a common order now, which are loaded with it. -/
theorem adoption_fails : ∃ error,
    (treeEndpoint.runBatch .update withChildren adoption).perform (adopted, ()) =
      (.error error, (adopted, ())) := by
  have grants : treeEndpoint.binding.authorizer.GrantsAll := Authorizer.allowAll_grantsAll
  cases ran : (treeEndpoint.runBatch .update withChildren adoption).perform (adopted, ()) with
  | mk result after =>
      cases result with
      | error error => exact ⟨error, congrArg (Prod.mk _) (runBatch_eq_error rfl grants ran)⟩
      | ok outcome =>
          exfalso
          obtain ⟨context, plan, _, _, _, prepared, _, aimed, _⟩ :=
            (runBatch_eq_ok rfl grants).mp ran
          cases prepareBatch_adoption.symm.trans prepared
          obtain ⟨_, _, fetched, _⟩ := Action.perform_bind_eq_ok.mp aimed
          change (treeEndpoint.fetchTargets adoptionContext [.int 1, .int 2]).perform _ = _
            at fetched
          unfold fetchTargets at fetched
          rw [QuerySpec.ofKeys_targets.mpr ⟨by decide, rfl⟩] at fetched
          obtain ⟨spec, _, isSpec, fetched⟩ := Action.perform_bind_eq_ok.mp fetched
          cases isSpec
          obtain ⟨found, _, got, _⟩ := Action.perform_bind_eq_ok.mp fetched
          obtain ⟨rows, middle, read, hydrated⟩ := Action.perform_bind_eq_ok.mp got
          have isRead : (Store.fetchRows treeEndpoint.registry bothNodes none none).Yields
              (adopted.opened, ()) [(smallNode 1 "z" .null).2, (smallNode 2 "b" (.int 1)).2] :=
            Memory.yields_fetchRows.mpr (fetchRows_bothNodes rfl)
          cases isRead.symm.trans read
          have fails : ((Store.hydrate treeEndpoint.registry bothNodes
              [(smallNode 1 "z" .null).2, (smallNode 2 "b" (.int 1)).2]).perform
                (adopted.opened, ())).1.isOk = false := by
            decide +kernel
          change (Store.hydrate treeEndpoint.registry bothNodes _).perform _ = _ at hydrated
          rw [hydrated] at fails
          cases fails

/-- An update that returns may leave a row as it was that is found under one of its keys, and may
fail when it is repeated. -/
theorem updates_amiss :
    (∃ outcome after,
      (nodeEndpoint.runBatch .update {}
        (.given (.object [("9", .object [("name", .text "x")])]))).perform (renumberedNode, ()) =
          (.ok outcome, after) ∧
      (after.1.contents.table "nodes").rows.all (fun row =>
        (row.get "id").coincides (.int 9) && (row.get "name").same (.text "left")) = true) ∧
      ∃ outcome after error,
        (treeEndpoint.runBatch .update withChildren adoption).perform (family, ()) =
          (.ok outcome, after) ∧
        (treeEndpoint.runBatch .update withChildren adoption).perform after =
          (.error error, after) := by
  obtain ⟨outcome, done⟩ := adoption_done
  obtain ⟨error, failed⟩ := adoption_fails
  exact ⟨renumbered_missed, outcome, (adopted, ()), error, done, failed⟩

end Endpoint

end ResourceServer
