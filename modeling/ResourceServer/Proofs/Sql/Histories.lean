import ResourceServer.Proofs.Memory.History
import ResourceServer.Proofs.Sql.Lockstep
import ResourceServer.Proofs.Sql.Performing

/-!
# Both stores are written alike

A store in memory and a database that are opened empty stay in step under every sequence of calls that add,
change and remove rows.  A call touches the table of one resource and is answered alike by both, so
the tables of all resources are in step after it; from there the run follows by induction on the
calls.  What a database numbers differently is left out: a row without a key, added while the row
of the greatest number that was used is gone.
-/

namespace ResourceServer

/-- Resources that keep their rows apart: no two of them have one name, and no two have one table. -/
structure Registry.KeepsApart (registry : Registry) : Prop where
  names : (registry.resources.map Resource.name).Nodup
  tables : (registry.resources.map fun resource => resource.model.table).Nodup

namespace Contents

variable {resource : Resource} {contents after : Contents} {key : Value} {name : String}

theorem insert_other {values : Record} (done : contents.insert resource values = .ok (key, after))
    (other : name ≠ resource.name) :
    after.table name = contents.table name ∧ after.sequence name = contents.sequence name := by
  obtain ⟨_, _, _, _, rfl⟩ := insert_eq_ok done
  refine ⟨?_, ?_⟩
  · rw [table_withKey, table_withTable_other other]
  · unfold withKey
    split
    · rw [sequence_withKeyUsed, if_neg other]
      rfl
    · rfl

/-- Changes that touch one resource only leave the other ones as they are. -/
theorem ChangesOnly.other {allowed : Value → Bool}
    (changes : ChangesOnly resource.name allowed contents after) (other : name ≠ resource.name) :
    after.table name = contents.table name ∧ after.sequence name = contents.sequence name :=
  ⟨changes.others name other, by rw [sequence, changes.sequences, sequence]⟩

end Contents

namespace Sql

theorem lookup_withTable (database : Database) (table : Table) (name : String) :
    (database.withTable table).lookup name =
      if name = table.model.table then (database.lookup name).map fun _ => table
      else database.lookup name := by
  have written : database.withTable table = database.map fun entry =>
      if entry.1 == table.model.table then (table.model.table, table) else entry := by
    refine List.map_congr_left fun entry _ => ?_
    split
    · rename_i same
      rw [beq_iff_eq.mp same]
    · rfl
  rw [written, Entries.lookup_overwrite]
  split
  · rename_i same
    rw [same]
  · rfl

/-- A store in memory and a database keep the tables of all resources in step. -/
def InStep (registry : Registry) (contents : Contents) (database : Database) : Prop :=
  ∀ resource ∈ registry.resources, ∃ table, database.lookup resource.model.table = some table ∧
    Lockstep resource (contents.table resource.name) (contents.sequence resource.name) table

section

variable {registry : Registry} {resource : Resource} {contents after : Contents}
  {database : Database} {table : Table}

theorem InStep.write (inStep : InStep registry contents database) (apart : registry.KeepsApart)
    (isResource : resource ∈ registry.resources)
    (others : ∀ name, name ≠ resource.name →
      after.table name = contents.table name ∧ after.sequence name = contents.sequence name)
    (lockstep : Lockstep resource (after.table resource.name) (after.sequence resource.name) table) :
    InStep registry after (database.withTable table) := by
  intro other isOther
  obtain ⟨current, found, kept⟩ := inStep other isOther
  rw [lookup_withTable, lockstep.model]
  by_cases same : other.model.table = resource.model.table
  · obtain rfl := List.inj_on_of_nodup_map apart.tables isOther isResource same
    rw [if_pos rfl, found]
    exact ⟨table, rfl, lockstep⟩
  · have differs : other.name ≠ resource.name := by
      intro sameName
      rw [List.inj_on_of_nodup_map apart.names isOther isResource sameName] at same
      exact same rfl
    obtain ⟨sameTable, sameSequence⟩ := others other.name differs
    rw [if_neg same, sameTable, sameSequence]
    exact ⟨current, found, kept⟩

end

/-! ## Calls -/

/-- An operation is answered alike by both stores: with the same result, or with a failure of each, and
they keep their tables in step. -/
structure AnsweredAlike {α : Type} (registry : Registry) (inMemory : Except Error α × Memory)
    (inDatabase : Except Error α × Connection) : Prop where
  results : TurnOutAlike Eq inMemory.1 inDatabase.1
  inStep : InStep registry inMemory.2.contents inDatabase.2.database
  noneOpen : inDatabase.2.transaction = none

section

variable {registry : Registry} {resource : Resource} {memory : Memory} {connection : Connection}

theorem AnsweredAlike.reply {α β : Type} {inMemory : Action Memory α}
    {inDatabase : Action Connection α}
    (alike : AnsweredAlike registry (inMemory.perform memory) (inDatabase.perform connection))
    (reply : α → β) :
    AnsweredAlike registry ((inMemory >>= fun value => pure (reply value)).perform memory)
      ((inDatabase >>= fun value => pure (reply value)).perform connection) := by
  rw [Action.perform_bind, Action.perform_bind]
  obtain ⟨results, inStep, noneOpen⟩ := alike
  generalize inMemory.perform memory = left at results inStep ⊢
  generalize inDatabase.perform connection = right at results inStep noneOpen ⊢
  obtain ⟨left, memory⟩ := left
  obtain ⟨right, connection⟩ := right
  cases results with
  | failed => exact ⟨.failed _ _, inStep, noneOpen⟩
  | done same => exact ⟨.done (congrArg reply same), inStep, noneOpen⟩

/-- Writing to the table of one resource is answered alike when it turns out alike. -/
theorem answeredAlike_write {α β : Type} {change : Contents → Except Error (α × Contents)}
    {action : Action Connection α} {onTable : Except Error (β × Table)} {answer : β → α}
    {noted : Sent} (inStep : InStep registry memory.contents connection.database)
    (noneOpen : connection.transaction = none) (apart : registry.KeepsApart)
    (isResource : resource ∈ registry.resources)
    (performed : action.perform connection = connection.written noted answer onTable)
    (others : ∀ value after, change memory.contents = .ok (value, after) →
      ∀ name, name ≠ resource.name → after.table name = memory.contents.table name ∧
        after.sequence name = memory.contents.sequence name)
    (alike : TurnOutAlike (WrittenAlike resource answer) (change memory.contents) onTable) :
    AnsweredAlike registry ((Memory.write change).perform memory) (action.perform connection) := by
  rw [performed, Action.perform, Memory.write_apply]
  generalize change memory.contents = changed at others alike ⊢
  cases alike with
  | failed => exact ⟨.failed _ _, inStep, noneOpen⟩
  | @done left right isRelated =>
      obtain ⟨sameResult, lockstep⟩ := isRelated
      refine ⟨.done sameResult, ?_, noneOpen⟩
      exact inStep.write apart isResource (others left.1 left.2 rfl) lockstep

end

/-- Whether values for a new row bring a positive whole number below a bound as its key, or none. -/
def BringsKey (resource : Resource) (values : Record) : Prop :=
  (resource.model.rowOf values).get resource.keyName = .null ∨
    ∃ number : Int, (resource.model.rowOf values).get resource.keyName = .int number ∧
      0 < number ∧ number < 2 ^ 62

section

variable {registry : Registry} {resource : Resource} {memory : Memory} {connection : Connection}
  {values changes : Record} {key : Value}

theorem exists_insertedCells (counted : resource.IsCounted) (takes : TakesRow resource values)
    (brings : BringsKey resource values) :
    ∃ cells, mapWritten Operand.toCell (Insert.ofValues resource values).values = .ok cells ∧
      Writes resource.model.columns (insertedValue? resource values) cells := by
  rw [ofValues_eq]
  refine exists_writes fun column isColumn value isSent => ?_
  by_cases isKey : column.name = resource.keyName
  · rw [insertedValue?_key counted values isColumn isKey] at isSent
    obtain ⟨keyColumn, member, _, named, isInteger, _⟩ := counted.keyColumn
    obtain rfl := counted.eq_of_name isColumn member (isKey.trans named.symm)
    obtain keyless | ⟨number, isNumber, positive, below⟩ := brings
    · rw [keyless] at isSent
      cases isSent
    · rw [isNumber] at isSent
      cases isSent
      have fits : fitsWord number = true := by
        rw [fitsWord, wordLimit, Bool.and_eq_true, decide_eq_true_eq, decide_eq_true_eq]
        omega
      rw [isInteger]
      exact ⟨_, .ofPlain rfl fits⟩
  · rw [insertedValue?_other counted takes isColumn isKey] at isSent
    cases isSent
    exact (takes column isColumn isKey).1

theorem insert_answered (inStep : InStep registry memory.contents connection.database)
    (noneOpen : connection.transaction = none) (apart : registry.KeepsApart)
    (isResource : resource ∈ registry.resources) (counted : resource.IsCounted)
    (takes : TakesRow resource values) (brings : BringsKey resource values)
    (stands : (resource.model.rowOf values).get resource.keyName = .null →
      lastKeyStands memory.contents resource.name = true) :
    AnsweredAlike registry
      ((Store.insert resource values : Action Memory Value).perform memory)
      ((Store.insert resource values : Action Connection Value).perform connection) := by
  obtain ⟨cells, isSent, writes⟩ := exists_insertedCells counted takes brings
  obtain ⟨table, found, lockstep⟩ := inStep resource isResource
  obtain ⟨noted, performed⟩ := perform_insert noneOpen found isSent
  refine answeredAlike_write inStep noneOpen apart isResource performed
    (fun _ _ done _ other => Contents.insert_other done other) ?_
  refine lockstep.insert_alike counted takes writes ?_
  obtain keyless | ⟨number, isNumber, positive, _⟩ := brings
  · exact .inl ⟨keyless, stands keyless⟩
  · exact .inr ⟨number, isNumber, positive⟩

/-- An operation that fails in both stores without a change is answered alike. -/
theorem answeredAlike_refused {α : Type} {change : Contents → Except Error (α × Contents)}
    {action : Action Connection α} {refusal fault : Error} {noted : Sent}
    (inStep : InStep registry memory.contents connection.database)
    (noneOpen : connection.transaction = none) (refused : change memory.contents = .error refusal)
    (performed : action.perform connection =
      (.error fault, { connection with sent := connection.sent ++ [noted] })) :
    AnsweredAlike registry ((Memory.write change).perform memory) (action.perform connection) := by
  rw [performed, Action.perform, Memory.write_apply, refused]
  exact ⟨.failed _ _, inStep, noneOpen⟩

theorem exists_changedCells (counted : resource.IsCounted)
    (takes : TakesChanges resource changes) :
    ∃ cells, mapWritten Operand.toCell (changedColumns resource changes) = .ok cells ∧
      Writes resource.model.columns (fun column => changes.get? column.name) cells :=
  exists_writes fun _ isColumn _ changed => (takes.of_get? counted isColumn changed).2.1

theorem update_answered (inStep : InStep registry memory.contents connection.database)
    (noneOpen : connection.transaction = none) (apart : registry.KeepsApart)
    (isResource : resource ∈ registry.resources) (counted : resource.IsCounted)
    (takes : TakesChanges resource changes) (plain : asksPlainly key = true) :
    AnsweredAlike registry
      ((Store.update resource key changes : Action Memory Int).perform memory)
      ((Store.update resource key changes : Action Connection Int).perform connection) := by
  cases notEmpty : changes.isEmpty with
  | true =>
      obtain rfl := List.isEmpty_iff.mp notEmpty
      exact ⟨.done rfl, inStep, noneOpen⟩
  | false =>
      obtain ⟨table, found, lockstep⟩ := inStep resource isResource
      obtain ⟨column, isColumn, _, named, isInteger, _⟩ := counted.keyColumn
      obtain ⟨cells, isSent, writes⟩ := exists_changedCells counted takes
      cases isKey : key.isKey with
      | true =>
          obtain ⟨test, asks⟩ := exists_asks isInteger isKey plain
          obtain ⟨noted, performed⟩ := perform_update counted takes notEmpty noneOpen found isColumn
            named isSent asks
          refine answeredAlike_write inStep noneOpen apart isResource performed ?_
            (lockstep.update_alike counted takes notEmpty writes named isKey asks)
          intro _ _ done _ other
          exact (Contents.update_changesOnly (fun _ _ => rfl) done).other other
      | false =>
          obtain ⟨fault, noted, performed⟩ := perform_update_refused counted takes notEmpty noneOpen
            isColumn named isInteger isSent isKey
          have refused : memory.contents.update resource key changes = .error (.plain .type) := by
            unfold Contents.update
            dsimp only
            rw [notEmpty, isKey]
            rfl
          exact answeredAlike_refused inStep noneOpen refused performed

theorem delete_answered (inStep : InStep registry memory.contents connection.database)
    (noneOpen : connection.transaction = none) (apart : registry.KeepsApart)
    (isResource : resource ∈ registry.resources) (counted : resource.IsCounted)
    (plain : asksPlainly key = true) :
    AnsweredAlike registry
      ((Store.delete resource key : Action Memory Int).perform memory)
      ((Store.delete resource key : Action Connection Int).perform connection) := by
  obtain ⟨table, found, lockstep⟩ := inStep resource isResource
  obtain ⟨column, isColumn, _, named, isInteger, _⟩ := counted.keyColumn
  cases isKey : key.isKey with
  | true =>
      obtain ⟨test, asks⟩ := exists_asks isInteger isKey plain
      obtain ⟨noted, performed⟩ := perform_delete counted noneOpen found isColumn named asks
      refine answeredAlike_write inStep noneOpen apart isResource performed ?_
        (lockstep.delete_alike named isKey asks)
      intro _ _ done _ other
      exact (Contents.delete_changesOnly (fun _ _ => rfl) done).other other
  | false =>
      obtain ⟨fault, noted, performed⟩ :=
        perform_delete_refused counted noneOpen isColumn named isInteger isKey
      have refused : memory.contents.delete resource key = .error (.plain .type) := by
        unfold Contents.delete
        dsimp only
        rw [isKey]
        rfl
      exact answeredAlike_refused inStep noneOpen refused performed

end

end Sql

/-! ## Histories -/

namespace StoreCall

open Sql

/-- Whether a call writes plainly to a counted resource that is registered: values and changes are taken
by their columns, a new row brings a positive key below a bound or none, and other keys are compared as
they stand. -/
def WritesPlainly (registry : Registry) : StoreCall → Prop
  | .insert resource values =>
      resource ∈ registry.resources ∧ resource.IsCounted ∧ TakesRow resource values ∧
        BringsKey resource values
  | .update resource key changes =>
      resource ∈ registry.resources ∧ resource.IsCounted ∧ TakesChanges resource changes ∧
        asksPlainly key = true
  | .delete resource key =>
      resource ∈ registry.resources ∧ resource.IsCounted ∧ asksPlainly key = true
  | _ => False

/-- Whether the row of the greatest number that was used is there when a call adds a row without a
key. -/
def continuesNumbers (contents : Contents) : StoreCall → Bool
  | .insert resource values =>
      !((resource.model.rowOf values).get resource.keyName).isNull ||
        lastKeyStands contents resource.name
  | _ => true

/-- Whether all calls that add rows without keys find the row of the greatest number that was used. -/
def continueNumbers : List StoreCall → Memory → Bool
  | [], _ => true
  | call :: rest, memory =>
      call.continuesNumbers memory.contents && continueNumbers rest (call.action.perform memory).2

end StoreCall

namespace Sql

section

variable {registry : Registry} {memory : Memory} {connection : Connection}

/-- A call that writes plainly is answered alike. -/
theorem call_answered {call : StoreCall}
    (inStep : InStep registry memory.contents connection.database)
    (noneOpen : connection.transaction = none) (apart : registry.KeepsApart)
    (plain : call.WritesPlainly registry)
    (continues : call.continuesNumbers memory.contents = true) :
    AnsweredAlike registry (call.action.perform memory) (call.action.perform connection) := by
  cases call with
  | insert resource values =>
      obtain ⟨isResource, counted, takes, brings⟩ := plain
      refine (insert_answered inStep noneOpen apart isResource counted takes brings ?_).reply _
      intro keyless
      rw [StoreCall.continuesNumbers, keyless] at continues
      exact continues
  | update resource key changes =>
      obtain ⟨isResource, counted, takes, asks⟩ := plain
      exact (update_answered inStep noneOpen apart isResource counted takes asks).reply _
  | delete resource key =>
      obtain ⟨isResource, counted, asks⟩ := plain
      exact (delete_answered inStep noneOpen apart isResource counted asks).reply _
  | _ => cases plain

/-- Calls that write plainly are answered alike, and keep the tables in step. -/
theorem run_answered {calls : List StoreCall}
    (inStep : InStep registry memory.contents connection.database)
    (noneOpen : connection.transaction = none) (apart : registry.KeepsApart)
    (plain : ∀ call ∈ calls, call.WritesPlainly registry)
    (continued : StoreCall.continueNumbers calls memory = true) :
    List.Forall₂ (TurnOutAlike Eq) (StoreCall.replies calls memory)
        (StoreCall.replies calls connection) ∧
      ∀ before, before <+: calls → InStep registry (StoreCall.after before memory).contents
        (StoreCall.after before connection).database := by
  -- What each call hands on to the rest are the tables in step and that no transaction is open.
  induction calls generalizing memory connection with
  | nil =>
      refine ⟨.nil, fun before isBefore => ?_⟩
      rw [List.prefix_nil.mp isBefore]
      exact inStep
  | cons call rest induction =>
      rw [List.forall_mem_cons] at plain
      rw [StoreCall.continueNumbers, Bool.and_eq_true] at continued
      obtain ⟨results, kept, closed⟩ :=
        call_answered inStep noneOpen apart plain.1 continued.1
      obtain ⟨replies, later⟩ := induction kept closed plain.2 continued.2
      refine ⟨.cons results replies, fun before isBefore => ?_⟩
      obtain rfl | ⟨others, rfl, areFirst⟩ := List.prefix_cons_iff.mp isBefore
      · exact inStep
      · exact later others areFirst

/-! ### Opened stores -/

/-- A connection to an empty database, in which the tables of all resources were made. -/
def opened (registry : Registry) : Connection :=
  ((Store.prepare registry none : Action Connection Unit).perform {}).2

theorem prepared_eq {models : List Model} (distinct : (models.map Model.table).Nodup)
    {database : Database}
    (missing : ∀ model ∈ models, database.any (·.1 == model.table) = false) :
    database.prepared models =
      database ++ models.map fun model => (model.table, ({ model } : Table)) := by
  induction models generalizing database with
  | nil => exact (List.append_nil database).symm
  | cons model models induction =>
      rw [List.map_cons, List.nodup_cons] at distinct
      rw [List.forall_mem_cons] at missing
      have stillMissing : ∀ other ∈ models,
          (database ++ [(model.table, ({ model } : Table))]).any (·.1 == other.table) = false := by
        intro other isOther
        have differs : model.table ≠ other.table := by
          intro same
          exact distinct.1 (same ▸ List.mem_map_of_mem isOther)
        rw [List.any_append, missing.2 other isOther, List.any_cons, beq_eq_false_iff_ne.mpr differs]
        rfl
      have later := induction distinct.2 stillMissing
      rw [Database.prepared, List.foldl_cons, missing.1, if_neg Bool.false_ne_true]
      rw [Database.prepared] at later
      rw [later, List.append_assoc]
      rfl

/-- Both stores begin with empty tables. -/
theorem opened_inStep (apart : registry.KeepsApart) :
    InStep registry ({} : Memory).contents (opened registry).database := by
  have distinct : ((registry.resources.map Resource.model).map Model.table).Nodup := by
    rw [List.map_map]
    exact apart.tables
  have database : (opened registry).database =
      (registry.resources.map Resource.model).map fun model =>
        (model.table, ({ model } : Table)) :=
    (prepared_eq distinct fun _ _ => rfl).trans (List.nil_append _)
  have named : ((opened registry).database.map Prod.fst).Nodup := by
    rw [database, List.map_map]
    exact distinct
  intro resource isResource
  refine ⟨{ model := resource.model }, ?_, .empty resource⟩
  have isEntry : (resource.model.table, ({ model := resource.model } : Table)) ∈
      (opened registry).database := by
    rw [database]
    exact List.mem_map_of_mem (List.mem_map_of_mem isResource)
  exact Entries.lookup_of_mem named isEntry

/-! ### Both stores -/

/-- A store in memory and a database hold the same rows under the same keys: what is read of the rows of a
table are the records of the resource, and the number in the key column of a row is the key of its
record. -/
def HoldAlike (registry : Registry) (contents : Contents) (database : Database) : Prop :=
  ∀ resource ∈ registry.resources, ∃ table, database.lookup resource.model.table = some table ∧
    (contents.table resource.name).Perm (table.rows.map (Row.entry resource.model)) ∧
      ∀ numbered ∈ table.rows, numbered.2.cell resource.keyName = .integer numbered.1

theorem InStep.holdAlike {contents : Contents} {database : Database}
    (inStep : InStep registry contents database) : HoldAlike registry contents database := by
  intro resource isResource
  obtain ⟨table, found, lockstep⟩ := inStep resource isResource
  exact ⟨table, found, lockstep.same, fun numbered isRow => (lockstep.filed numbered isRow).key⟩

/-- A store in memory and a database that begin empty and are written to alike reply alike to every call,
and hold the same rows under the same keys before and after each. -/
theorem stores_write_alike {calls : List StoreCall} (apart : registry.KeepsApart)
    (plain : ∀ call ∈ calls, call.WritesPlainly registry)
    (continued : StoreCall.continueNumbers calls {} = true) :
    List.Forall₂ (TurnOutAlike Eq) (StoreCall.replies calls ({} : Memory))
        (StoreCall.replies calls (opened registry)) ∧
      ∀ before, before <+: calls →
        HoldAlike registry (StoreCall.after before ({} : Memory)).contents
          (StoreCall.after before (opened registry)).database := by
  obtain ⟨replies, inStep⟩ := run_answered (opened_inStep apart) rfl apart plain continued
  exact ⟨replies, fun before isBefore => (inStep before isBefore).holdAlike⟩

end

/-- The number that a reply tells, if the call succeeds and tells one. -/
def toldNumber? : Except Error StoreReply → Option Int
  | .ok (.key (.int number)) | .ok (.number number) => some number
  | _ => none

section

open Samples Samples.Blog

theorem blog_keepsApart : Registry.KeepsApart ⟨resources⟩ where
  names := by decide
  tables := by decide

theorem posts_isCounted : posts.IsCounted where
  distinct := by decide
  key := ⟨countedKey, rfl, rfl, rfl, rfl⟩

/-- Posts are written with and without keys, twice one of them may not be added, one is changed, and keys
that are equal to a number, or to none, are asked for. -/
def writtenPosts : List StoreCall := [
  .insert posts [("title", .text "first"), ("views", .int 3)],
  .insert posts [("id", .int 7), ("title", .text "second"), ("author_id", .int 1)],
  .insert posts [("title", .text "first")],
  .insert posts [("id", .int 7), ("title", .text "third")],
  .insert posts [("title", .text "third")],
  .update posts (.int 7) [("status", .text "done"), ("deleted_at", .moment trashedAt)],
  .update posts (.int 8) [("title", .text "second")],
  .delete posts (.bool true),
  .delete posts (.text "first"),
  .delete posts (.list []),
  .insert posts [("title", .text "first")]]

theorem writtenPosts_plain : ∀ call ∈ writtenPosts, call.WritesPlainly ⟨resources⟩ := by
  have isResource : posts ∈ (⟨resources⟩ : Registry).resources := by
    change posts ∈ [authors, profiles, posts, comments]
    simp
  have isColumn : ∀ name column, posts.model.column? name = some column →
      column ∈ posts.model.columns := fun _ _ found => List.mem_of_find?_eq_some found
  have takesDone : TakesChanges posts
      [("status", .text "done"), ("deleted_at", .moment trashedAt)] := by
    refine ⟨by decide, fun change isChange => ?_⟩
    rw [List.mem_cons, List.mem_singleton] at isChange
    obtain rfl | rfl := isChange
    · exact ⟨by decide, _, isColumn "status" _ rfl, rfl, exists_standsFor rfl, nofun⟩
    · exact ⟨by decide, _, isColumn "deleted_at" _ rfl, rfl,
        ⟨.text "2024-01-01 00:00:00.000000", rfl, rfl⟩, nofun⟩
  have takesTitle : TakesChanges posts [("title", .text "second")] := by
    refine ⟨by decide, fun change isChange => ?_⟩
    rw [List.mem_singleton] at isChange
    obtain rfl := isChange
    exact ⟨by decide, _, isColumn "title" _ rfl, rfl, exists_standsFor rfl, nofun⟩
  intro call member
  simp only [writtenPosts, List.mem_cons, List.not_mem_nil, or_false] at member
  obtain rfl | rfl | rfl | rfl | rfl | rfl | rfl | rfl | rfl | rfl | rfl := member
  · exact ⟨isResource, posts_isCounted, takesRow_of_plain (by decide +kernel), .inl rfl⟩
  · exact ⟨isResource, posts_isCounted, takesRow_of_plain (by decide +kernel),
      .inr ⟨7, rfl, by decide, by decide⟩⟩
  · exact ⟨isResource, posts_isCounted, takesRow_of_plain (by decide +kernel), .inl rfl⟩
  · exact ⟨isResource, posts_isCounted, takesRow_of_plain (by decide +kernel),
      .inr ⟨7, rfl, by decide, by decide⟩⟩
  · exact ⟨isResource, posts_isCounted, takesRow_of_plain (by decide +kernel), .inl rfl⟩
  · exact ⟨isResource, posts_isCounted, takesDone, rfl⟩
  · exact ⟨isResource, posts_isCounted, takesTitle, rfl⟩
  · exact ⟨isResource, posts_isCounted, rfl⟩
  · exact ⟨isResource, posts_isCounted, rfl⟩
  · exact ⟨isResource, posts_isCounted, rfl⟩
  · exact ⟨isResource, posts_isCounted, takesRow_of_plain (by decide +kernel), .inl rfl⟩

theorem stores_write_alike_posts :
    Registry.KeepsApart ⟨resources⟩ ∧
      (∀ call ∈ writtenPosts, call.WritesPlainly ⟨resources⟩) ∧
      StoreCall.continueNumbers writtenPosts {} = true ∧
      (StoreCall.replies writtenPosts ({} : Memory)).map toldNumber? =
        [some 1, some 7, none, none, some 8, some 1, none, some 1, some 0, none, some 9] ∧
      List.Forall₂ (TurnOutAlike Eq) (StoreCall.replies writtenPosts ({} : Memory))
        (StoreCall.replies writtenPosts (opened ⟨resources⟩)) ∧
      HoldAlike ⟨resources⟩ (StoreCall.after writtenPosts ({} : Memory)).contents
        (StoreCall.after writtenPosts (opened ⟨resources⟩)).database := by
  have continued : StoreCall.continueNumbers writtenPosts {} = true := by decide +kernel
  obtain ⟨replies, held⟩ := stores_write_alike blog_keepsApart writtenPosts_plain continued
  exact ⟨blog_keepsApart, writtenPosts_plain, continued, by decide +kernel, replies,
    held writtenPosts (List.prefix_refl _)⟩

end

section

open Samples Samples.Library

/-- Calls that the stores do not reply to alike. -/
def AnsweredApart (registry : Registry) (calls : List StoreCall) : Prop :=
  ¬List.Forall₂ (TurnOutAlike Eq) (StoreCall.replies calls ({} : Memory))
    (StoreCall.replies calls (opened registry))

theorem answeredApart_of_told {registry : Registry} {calls : List StoreCall}
    (differ : (StoreCall.replies calls ({} : Memory)).map toldNumber? ≠
      (StoreCall.replies calls (opened registry)).map toldNumber?) :
    AnsweredApart registry calls := by
  intro alike
  have same : List.Forall₂ Eq ((StoreCall.replies calls ({} : Memory)).map toldNumber?)
      ((StoreCall.replies calls (opened registry)).map toldNumber?) := by
    rw [List.forall₂_map_left_iff, List.forall₂_map_right_iff]
    refine alike.imp fun left right answered => ?_
    cases answered with
    | failed => rfl
    | done same => rw [same]
  rw [List.forall₂_eq_eq_eq] at same
  exact differ same

/-- The only node is removed, and another one is added without a key. -/
def reusedNumber : List StoreCall := [.insert nodes [], .delete nodes (.int 1), .insert nodes []]

/-- A rank of more than 64 bits. -/
def wideRank : List StoreCall := [.insert nodes [("rank", .int (2 ^ 63))]]

/-- A name that must be given is taken away. -/
def emptiedName : List StoreCall :=
  [.insert nodes [], .update nodes (.int 1) [("name", .null)]]

/-- A column that nodes do not have is changed. -/
def strayColumn : List StoreCall :=
  [.insert nodes [], .update nodes (.int 1) [("nickname", .text "root")]]

/-- A key is asked for by the text that spells it. -/
def spelledKey : List StoreCall := [.insert nodes [], .delete nodes (.text "1")]

/-- A key of more than 64 bits is asked for. -/
def wideKey : List StoreCall := [.delete nodes (.int (2 ^ 63))]

/-- Nodes under another name, in the same table. -/
def twigs : Resource := { nodes with name := "twigs" }

/-- Nodes that are found by their rank, which is no primary key. -/
def nodesByRank : Resource := { nodes with keyName := "rank" }

/-- Nodes that have other columns. -/
def nodesOf (columns : List Column) : Resource := { nodes with model := { node with columns } }

/-- Nodes whose key has a default. -/
def startedNodes : Resource := nodesOf [{ countedKey with fallback := some (.int 5) }]

/-- Nodes with a tag of their own, which may be null and has a default. -/
def taggedNodes : Resource :=
  nodesOf [countedKey, { optional "tag" .text with fallback := some (.text "none"), isUnique := true }]

/-- A database numbers a new row after the last one that is there, while a store in memory counts on after
the greatest number that was ever used: after the last row was removed they give the next one different
keys.  They also part on values that a column does not keep, changes of columns that are not there or may
not be empty, keys that a database converts or cannot be sent, tables that resources share, keys that are
not primary or have a default, and null for a column with a default. -/
theorem stores_write_apart :
    (∀ call ∈ reusedNumber, call.WritesPlainly ⟨resources⟩) ∧
      AnsweredApart ⟨resources⟩ reusedNumber ∧
      (∀ calls ∈ [wideRank, emptiedName, strayColumn, spelledKey, wideKey],
        AnsweredApart ⟨resources⟩ calls) ∧
      AnsweredApart ⟨[nodes, twigs]⟩ [.insert nodes [], .insert twigs []] ∧
      AnsweredApart ⟨[nodesByRank]⟩ [.insert nodesByRank []] ∧
      AnsweredApart ⟨[startedNodes]⟩ [.insert startedNodes [("id", .null)]] ∧
      AnsweredApart ⟨[taggedNodes]⟩
        [.insert taggedNodes [("tag", .null)], .insert taggedNodes [("tag", .null)]] := by
  refine ⟨?_, answeredApart_of_told (by decide +kernel), ?_,
    answeredApart_of_told (by decide +kernel), answeredApart_of_told (by decide +kernel),
    answeredApart_of_told (by decide +kernel), answeredApart_of_told (by decide +kernel)⟩
  · have isResource : nodes ∈ (⟨resources⟩ : Registry).resources := by
      change nodes ∈ [shelves, books, labels, nodes, gauges]
      simp
    have counted : nodes.IsCounted := ⟨by decide, countedKey, rfl, rfl, rfl, rfl⟩
    have takesNode : TakesRow nodes [] := takesRow_of_plain (by decide +kernel)
    intro call member
    simp only [reusedNumber, List.mem_cons, List.not_mem_nil, or_false] at member
    obtain rfl | rfl | rfl := member
    · exact ⟨isResource, counted, takesNode, .inl rfl⟩
    · exact ⟨isResource, counted, rfl⟩
    · exact ⟨isResource, counted, takesNode, .inl rfl⟩
  · intro calls member
    simp only [List.mem_cons, List.not_mem_nil, or_false] at member
    obtain rfl | rfl | rfl | rfl | rfl := member
    all_goals exact answeredApart_of_told (by decide +kernel)

end

end Sql

end ResourceServer
