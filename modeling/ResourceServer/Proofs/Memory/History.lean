import ResourceServer.Samples.Library
import ResourceServer.Proofs.Memory.Integrity
import ResourceServer.Proofs.Memory.Versions

/-!
# Histories of the store in memory

Whatever is called on an empty store, its contents stay as they should be, a call that fails
changes nothing, and a row that is given no key gets one that no row has or ever had.  What
is carried from call to call is that the contents are intact for the keys that were used so
far, and those that an open transaction goes back to for the keys that were used until then.
-/

namespace ResourceServer

/-- The keys that inserts have used, with the names of their resources: so far, and when the
transaction that is open was begun. -/
structure KeyLog where
  used : List (String × Value) := []
  before : List (String × Value) := []

/-- The log after a call and its reply. -/
def KeyLog.record (log : KeyLog) : StoreCall × Except Error StoreReply → KeyLog
  | (.insert resource _, .ok (.key key)) => { log with used := (resource.name, key) :: log.used }
  | (.begin, .ok _) => { log with before := log.used }
  | (.rollback, .ok _) => { log with used := log.before }
  | _ => log

/-- A call that fails uses no key. -/
theorem KeyLog.record_error (log : KeyLog) (call : StoreCall) (error : Error) :
    log.record (call, .error error) = log := by
  cases call <;> rfl

/-- The keys that inserts have used in a history, those that were taken back left out. -/
def KeyLog.ofHistory (history : List (StoreCall × Except Error StoreReply)) : KeyLog :=
  history.foldl KeyLog.record {}

namespace StoreCall

/-- Whether a call writes to a resource as it is registered, and names no key column among its
changes. -/
def Within (registry : Registry) : StoreCall → Prop
  | .insert resource _ => registry.find? resource.name = some resource
  | .update resource _ changes =>
      registry.find? resource.name = some resource ∧ changes.has resource.keyName = false
  | .delete resource _ => registry.find? resource.name = some resource
  | .softDelete _ resource _ => registry.find? resource.name = some resource
  | .restore resource _ => registry.find? resource.name = some resource
  | _ => True

theorem perform_write_reply {α : Type} (change : Contents → Except Error (α × Contents))
    (reply : α → StoreReply) (memory : Memory) :
    (Memory.write change >>= fun value => pure (reply value)).perform memory =
      match change memory.contents with
      | .ok (value, contents) => (.ok (reply value), { memory with contents })
      | .error error => (.error error, memory) := by
  rw [Action.perform_bind, Action.perform, Memory.write_apply]
  cases change memory.contents with
  | error error => rfl
  | ok written => rfl

theorem perform_insert (resource : Resource) (values : Record) (memory : Memory) :
    (StoreCall.insert resource values).action.perform memory =
      match memory.contents.insert resource values with
      | .ok (key, contents) => (.ok (.key key), { memory with contents })
      | .error error => (.error error, memory) := by
  refine
    (perform_write_reply (fun contents => contents.insert resource values) .key memory).trans ?_
  cases memory.contents.insert resource values <;> rfl

theorem perform_update (resource : Resource) (key : Value) (changes : Record) (memory : Memory) :
    (StoreCall.update resource key changes).action.perform memory =
      match memory.contents.update resource key changes with
      | .ok (number, contents) => (.ok (.number number), { memory with contents })
      | .error error => (.error error, memory) := by
  refine
    (perform_write_reply (fun contents => contents.update resource key changes) .number
      memory).trans ?_
  cases memory.contents.update resource key changes <;> rfl

theorem perform_delete (resource : Resource) (key : Value) (memory : Memory) :
    (StoreCall.delete resource key).action.perform memory =
      match memory.contents.delete resource key with
      | .ok (number, contents) => (.ok (.number number), { memory with contents })
      | .error error => (.error error, memory) := by
  refine
    (perform_write_reply (fun contents => contents.delete resource key) .number memory).trans ?_
  cases memory.contents.delete resource key <;> rfl

/-- Reading leaves the store as it is. -/
theorem perform_get_state (registry : Registry) (spec : QuerySpec) (memory : Memory) :
    ((StoreCall.get registry spec).action.perform memory).2 = memory := by
  have quiet : (memory, ()) = ((StoreCall.get registry spec).action.perform (memory, ())).2 :=
    (then_reply (get_quiet registry spec) (memory, ())).1
  rw [action_mirrors (Store.mirrors_beside ()) (.get registry spec) memory] at quiet
  exact (congrArg Prod.fst quiet).symm

theorem perform_count_state (registry : Registry) (spec : QuerySpec) (memory : Memory) :
    ((StoreCall.count registry spec).action.perform memory).2 = memory := by
  have quiet : (memory, ()) = ((StoreCall.count registry spec).action.perform (memory, ())).2 :=
    (then_reply (count_quiet registry spec) (memory, ())).1
  rw [action_mirrors (Store.mirrors_beside ()) (.count registry spec) memory] at quiet
  exact (congrArg Prod.fst quiet).symm

/-- How a call can turn out on a store in memory. -/
inductive Effect (memory : Memory) : StoreCall → Except Error StoreReply × Memory → Prop
  | failed {call : StoreCall} {error : Error} : Effect memory call (.error error, memory)
  | inserted {resource : Resource} {values : Record} {key : Value} {contents : Contents}
      (done : memory.contents.insert resource values = .ok (key, contents)) :
      Effect memory (.insert resource values) (.ok (.key key), { memory with contents })
  | updated {resource : Resource} {key : Value} {changes : Record} {number : Int}
      {contents : Contents}
      (done : memory.contents.update resource key changes = .ok (number, contents)) :
      Effect memory (.update resource key changes) (.ok (.number number), { memory with contents })
  | deleted {resource : Resource} {key : Value} {number : Int} {contents : Contents}
      (done : memory.contents.delete resource key = .ok (number, contents)) :
      Effect memory (.delete resource key) (.ok (.number number), { memory with contents })
  | trashed {now : Moment} {resource : Resource} {key : Value} {number : Int} {contents : Contents}
      (softDeletes : resource.softDeletes = true)
      (done : memory.contents.update resource key [(resource.deletedAtColumn, .moment now)] =
        .ok (number, contents)) :
      Effect memory (.softDelete now resource key) (.ok (.number number), { memory with contents })
  | restored {resource : Resource} {key : Value} {number : Int} {contents : Contents}
      (softDeletes : resource.softDeletes = true)
      (done : memory.contents.update resource key [(resource.deletedAtColumn, .null)] =
        .ok (number, contents)) :
      Effect memory (.restore resource key) (.ok (.number number), { memory with contents })
  | begun (closed : memory.snapshot = none) :
      Effect memory .begin (.ok .done,
        { memory with snapshot := some memory.contents, locks := memory.locks + 1 })
  | committed (active : memory.snapshot.isSome = true) :
      Effect memory .commit (.ok .done, { memory with snapshot := none, locks := memory.locks - 1 })
  | rolledBack {contents : Contents} (saved : memory.snapshot = some contents) :
      Effect memory .rollback (.ok .done,
        { memory with contents, snapshot := none, locks := memory.locks - 1 })
  | got {registry : Registry} {spec : QuerySpec} {reply : StoreReply} :
      Effect memory (.get registry spec) (.ok reply, memory)
  | counted {registry : Registry} {spec : QuerySpec} {reply : StoreReply} :
      Effect memory (.count registry spec) (.ok reply, memory)

/-- A change that trashes or restores a row turns out as any other one. -/
theorem effect_of_update {call : StoreCall} {resource : Resource} {key : Value} {changes : Record}
    {memory : Memory}
    (changed : ∀ number contents,
      memory.contents.update resource key changes = .ok (number, contents) →
      Effect memory call (.ok (.number number), { memory with contents })) :
    Effect memory call ((StoreCall.update resource key changes).action.perform memory) := by
  rw [perform_update]
  cases done : memory.contents.update resource key changes with
  | error error => exact .failed
  | ok written => exact changed _ _ done

/-- A call that leaves the store as it is fails, or turns out as a reading call does. -/
theorem effect_of_unchanged {call : StoreCall} {memory : Memory}
    (unchanged : (call.action.perform memory).2 = memory)
    (reads : ∀ reply, Effect memory call (.ok reply, memory)) :
    Effect memory call (call.action.perform memory) := by
  generalize call.action.perform memory = outcome at unchanged ⊢
  obtain ⟨reply, after⟩ := outcome
  obtain rfl : after = memory := unchanged
  cases reply with
  | error error => exact .failed
  | ok reply => exact reads reply

theorem effect (call : StoreCall) (memory : Memory) :
    Effect memory call (call.action.perform memory) := by
  cases call with
  | insert resource values =>
      rw [perform_insert]
      cases done : memory.contents.insert resource values with
      | error error => exact .failed
      | ok written => exact .inserted done
  | update resource key changes => exact effect_of_update fun _ _ done => .updated done
  | delete resource key =>
      rw [perform_delete]
      cases done : memory.contents.delete resource key with
      | error error => exact .failed
      | ok written => exact .deleted done
  | softDelete now resource key =>
      rw [action_softDelete]
      split
      · rename_i softDeletes
        exact effect_of_update fun _ _ done => .trashed softDeletes done
      · exact .failed
  | restore resource key =>
      rw [action_restore]
      split
      · rename_i softDeletes
        exact effect_of_update fun _ _ done => .restored softDeletes done
      · exact .failed
  | begin =>
      obtain ⟨contents, snapshot, locks⟩ := memory
      cases snapshot with
      | none => exact .begun rfl
      | some snapshot => exact .failed
  | commit =>
      obtain ⟨contents, snapshot, locks⟩ := memory
      cases snapshot with
      | none => exact .failed
      | some snapshot => exact .committed rfl
  | rollback =>
      obtain ⟨contents, snapshot, locks⟩ := memory
      cases snapshot with
      | none => exact .failed
      | some snapshot => exact .rolledBack rfl
  | get registry spec =>
      exact effect_of_unchanged (perform_get_state registry spec memory) fun _ => .got
  | count registry spec =>
      exact effect_of_unchanged (perform_count_state registry spec memory) fun _ => .counted

/-- A call that fails changes nothing. -/
theorem perform_action_error {call : StoreCall} {memory : Memory} {error : Error}
    (failed : (call.action.perform memory).1 = .error error) :
    (call.action.perform memory).2 = memory := by
  have effect := call.effect memory
  generalize call.action.perform memory = outcome at effect failed ⊢
  cases effect with
  | failed => rfl
  | _ => cases failed

end StoreCall

namespace Memory

variable {registry : Registry} {log : KeyLog} {memory : Memory}

/-- The contents are as they should be for the keys that were used, and so are those that an
open transaction goes back to, for the keys that were used when it was begun. -/
structure Intact (registry : Registry) (log : KeyLog) (memory : Memory) : Prop where
  contents : memory.contents.Intact registry log.used
  snapshot : ∀ contents, memory.snapshot = some contents → contents.Intact registry log.before

theorem Intact.withContents (intact : memory.Intact registry log) {used : List (String × Value)}
    {contents : Contents} (isIntact : contents.Intact registry used) :
    ({ memory with contents } : Memory).Intact registry { log with used } where
  contents := isIntact
  snapshot := intact.snapshot

/-- The mark of a trashed row names no key column, unless it is kept there. -/
theorem unnamed_mark {resource : Resource} (softDeletes : resource.softDeletes = true)
    (mark : Value) (keeps : resource.marksKey = false) :
    Record.has [(resource.deletedAtColumn, mark)] resource.keyName = false := by
  rw [Resource.marksKey, softDeletes, Bool.true_and] at keeps
  rw [Record.has, List.any_cons, List.any_nil, Bool.or_false]
  exact keeps

/-- Every call keeps the store as it should be, for the keys that were used until then. -/
theorem Intact.action {call : StoreCall} (intact : memory.Intact registry log)
    (within : call.Within registry) :
    (call.action.perform memory).2.Intact registry
      (log.record (call, (call.action.perform memory).1)) := by
  have effect := call.effect memory
  generalize call.action.perform memory = outcome at effect ⊢
  cases effect with
  | failed => rwa [KeyLog.record_error]
  | inserted done => exact intact.withContents (intact.contents.insert within done)
  | updated done =>
      exact intact.withContents (intact.contents.update within.1 (fun _ => within.2) done)
  | deleted done => exact intact.withContents (intact.contents.delete within done)
  | trashed softDeletes done =>
      exact intact.withContents
        (intact.contents.update within (unnamed_mark softDeletes _) done)
  | restored softDeletes done =>
      exact intact.withContents
        (intact.contents.update within (unnamed_mark softDeletes _) done)
  | begun closed =>
      refine ⟨intact.contents, fun _ isSnapshot => ?_⟩
      cases isSnapshot
      exact intact.contents
  | committed active => exact ⟨intact.contents, nofun⟩
  | rolledBack saved => exact ⟨intact.snapshot _ saved, nofun⟩
  | got => exact intact
  | counted => exact intact

/-- Any calls keep the store as it should be. -/
theorem Intact.run {calls : List StoreCall} (intact : memory.Intact registry log)
    (within : ∀ call ∈ calls, call.Within registry) :
    (StoreCall.after calls memory).Intact registry
      ((calls.zip (StoreCall.replies calls memory)).foldl KeyLog.record log) := by
  induction calls generalizing memory log with
  | nil => exact intact
  | cons call rest induction =>
      rw [List.forall_mem_cons] at within
      rw [StoreCall.after_cons, StoreCall.replies_cons, List.zip_cons_cons, List.foldl_cons]
      exact induction (intact.action within.1) within.2

theorem intact_empty : ({} : Memory).Intact registry {} where
  contents := Contents.intact_empty
  snapshot _ isSnapshot := by cases isSnapshot

/-- What can be relied on after a history of calls. -/
structure Sound (registry : Registry) (history : List (StoreCall × Except Error StoreReply))
    (memory : Memory) : Prop where
  /-- No two rows of a resource repeat each other where they may not. -/
  unique : ∀ resource : Resource, registry.find? resource.name = some resource →
    (memory.contents.table resource.name).Pairwise fun left right =>
      ∀ columns, resource.model.DemandsUnique columns → ¬left.2.Repeats columns right.2
  /-- Every row is filed under the value of its key column, unless trashing it writes there. -/
  filed : ∀ resource : Resource, registry.find? resource.name = some resource →
    resource.marksKey = false → ∀ entry ∈ memory.contents.table resource.name,
      entry.2.get resource.keyName = entry.1
  /-- A call that fails changes nothing. -/
  failed : ∀ (call : StoreCall) (error : Error),
    (call.action.perform memory).1 = .error error → (call.action.perform memory).2 = memory
  /-- A row without a key gets the first unused whole number above the sequence, which is
  greater than every whole number that was used as a key, unless it repeats another row. -/
  fresh : ∀ (resource : Resource) (values : Record),
    (resource.model.rowOf values).get resource.keyName = .null →
    ∃ number : Int,
      (memory.contents.table resource.name).hasKey (.int number) = false ∧
      (∀ smaller, memory.contents.sequence resource.name < smaller → smaller < number →
        (memory.contents.table resource.name).hasKey (.int smaller) = true) ∧
      (∀ used earlier, (resource.name, used) ∈ (KeyLog.ofHistory history).used →
        Contents.keyNumber? used = some earlier → earlier < number) ∧
      (((StoreCall.insert resource values).action.perform memory).1 = .ok (.key (.int number)) ∨
        ∃ columns, ((StoreCall.insert resource values).action.perform memory).1 =
          .error (.value (.duplicateValues columns resource.name)))

theorem Intact.fresh {resource : Resource} {values : Record}
    (intact : memory.Intact registry log)
    (keyless : (resource.model.rowOf values).get resource.keyName = .null) :
    ∃ number : Int,
      (memory.contents.table resource.name).hasKey (.int number) = false ∧
      (∀ smaller, memory.contents.sequence resource.name < smaller → smaller < number →
        (memory.contents.table resource.name).hasKey (.int smaller) = true) ∧
      (∀ used earlier, (resource.name, used) ∈ log.used →
        Contents.keyNumber? used = some earlier → earlier < number) ∧
      (((StoreCall.insert resource values).action.perform memory).1 = .ok (.key (.int number)) ∨
        ∃ columns, ((StoreCall.insert resource values).action.perform memory).1 =
          .error (.value (.duplicateValues columns resource.name))) := by
  obtain ⟨number, above, free, first, inserted⟩ := Contents.insert_keyless keyless
  refine ⟨number, free, first, ?_, ?_⟩
  · intro used earlier isUsed counts
    exact (intact.contents.counted _ used earlier isUsed counts).trans_lt above
  · rw [StoreCall.perform_insert]
    obtain ⟨after, done⟩ | ⟨columns, refused⟩ := inserted
    · exact .inl (by rw [done])
    · exact .inr ⟨columns, by rw [refused]⟩

end Memory

/-- After any calls on an empty store that write to registered resources and name no key column
among their changes, rows repeat no other ones where they may not, they are filed under their
keys, failing changes nothing, and a new key is greater than any that was ever used. -/
theorem Memory.run_sound {registry : Registry} {calls : List StoreCall}
    (within : ∀ call ∈ calls, call.Within registry) :
    (StoreCall.after calls ({} : Memory)).Sound registry
      (calls.zip (StoreCall.replies calls ({} : Memory))) := by
  have intact : (StoreCall.after calls ({} : Memory)).Intact registry _ :=
    Memory.intact_empty.run within
  exact {
    unique := fun resource registered => (intact.contents.tables resource registered).unique
    filed := fun resource registered => (intact.contents.tables resource registered).filed
    failed := fun call error => StoreCall.perform_action_error
    fresh := fun resource values => intact.fresh }

/-- Posts are written with and without keys, one of them repeats a title, and one is trashed.
What a transaction adds and removes is taken back, and the last post is removed. -/
def postCalls : List StoreCall := [
  .insert Samples.Blog.posts [("id", .int 10), ("title", .text "first")],
  .insert Samples.Blog.posts [("title", .text "second")],
  .insert Samples.Blog.posts [("title", .text "second")],
  .softDelete Samples.Blog.trashedAt Samples.Blog.posts (.int 10),
  .begin,
  .insert Samples.Blog.posts [("id", .int 40), ("title", .text "third")],
  .delete Samples.Blog.posts (.int 11),
  .rollback,
  .delete Samples.Blog.posts (.int 11)]

theorem postCalls_within : ∀ call ∈ postCalls, call.Within ⟨Samples.Blog.resources⟩ := by
  have registered : Registry.find? ⟨Samples.Blog.resources⟩ Samples.Blog.posts.name =
      some Samples.Blog.posts := rfl
  intro call member
  simp only [postCalls, List.mem_cons, List.not_mem_nil, or_false] at member
  obtain rfl | rfl | rfl | rfl | rfl | rfl | rfl | rfl | rfl := member
  all_goals first | exact registered | exact trivial

/-- The second post had the key 11, and a later one gets the next. -/
theorem run_sound_posts :
    (∀ call ∈ postCalls, call.Within ⟨Samples.Blog.resources⟩) ∧
      (StoreCall.after postCalls ({} : Memory)).Sound ⟨Samples.Blog.resources⟩
        (postCalls.zip (StoreCall.replies postCalls ({} : Memory))) ∧
      ((StoreCall.after (postCalls ++ [.insert Samples.Blog.posts [("title", .text "second")]])
        ({} : Memory)).contents.table "posts").hasKey (.int 12) = true := by
  exact ⟨postCalls_within, Memory.run_sound postCalls_within, by decide +kernel⟩

/-- Nodes whose mark of trashing is kept in their key column. -/
def markedNodes : Resource :=
  { Samples.Library.nodes with softDeletes := true, deletedAtColumn := "id" }

/-- A node is added and trashed. -/
def markedCalls : List StoreCall := [
  .insert markedNodes [("id", .int 1)],
  .softDelete Samples.Library.trashedAt markedNodes (.int 1)]

/-- The registry accepts a key column that trashing writes to, and a row that is trashed then
stays under the key that it had. -/
theorem marked_row_misfiled :
    Registry.validate ⟨[markedNodes]⟩ = .ok () ∧
      (∀ call ∈ markedCalls, call.Within ⟨[markedNodes]⟩) ∧
      ¬ ∀ entry ∈ (StoreCall.after markedCalls ({} : Memory)).contents.table "nodes",
        entry.2.get "id" = entry.1 := by
  have registered : Registry.find? ⟨[markedNodes]⟩ markedNodes.name = some markedNodes := rfl
  refine ⟨rfl, ?_, ?_⟩
  · intro call member
    simp only [markedCalls, List.mem_cons, List.not_mem_nil, or_false] at member
    obtain rfl | rfl := member
    · exact registered
    · exact registered
  · intro filed
    have misfiled : ((StoreCall.after markedCalls ({} : Memory)).contents.table "nodes").any
        (fun entry => entry.1.same (.int 1) && !(entry.2.get "id").same (.int 1)) = true := by
      decide +kernel
    obtain ⟨entry, member, wrong⟩ := List.any_eq_true.mp misfiled
    rw [filed entry member, Bool.and_eq_true, Bool.not_eq_true'] at wrong
    rw [wrong.1] at wrong
    cases wrong.2

end ResourceServer
