import ResourceServer.Proofs.Memory.Reading
import ResourceServer.Proofs.Store.Calls

/-!
# Committed contents and a working copy

A store of versions keeps the committed contents and, while a transaction is open, a working
copy of them.  The store in memory keeps the same with a snapshot and a lock: it mirrors the
store of versions, so that both reply alike to every list of calls.
-/

namespace ResourceServer

/-- The committed contents, and the working copy of an open transaction. -/
structure Versions where
  committed : Contents := {}
  working : Option Contents := none

namespace Versions

variable {α : Type}

/-- The contents that reads and writes use: the working copy while there is one. -/
def current (versions : Versions) : Contents := versions.working.getD versions.committed

/-- The versions with other contents for reads and writes to use. -/
def withCurrent (versions : Versions) (contents : Contents) : Versions :=
  match versions.working with
  | some _ => { versions with working := some contents }
  | none => { versions with committed := contents }

/-- Answers a question about the current contents. -/
def read (question : Contents → Except Error α) : Action Versions α := fun versions =>
  (question versions.current, versions)

/-- Changes the current contents; nothing is changed when that fails. -/
def write (change : Contents → Except Error (α × Contents)) : Action Versions α :=
  fun versions =>
    match change versions.current with
    | .ok (result, contents) => (.ok result, versions.withCurrent contents)
    | .error error => (.error error, versions)

/-- Starts a working copy of the committed contents. -/
def begin : Action Versions Unit := fun versions =>
  match versions.working with
  | some _ => (.error (.transaction .alreadyActive), versions)
  | none => (.ok (), { versions with working := some versions.committed })

/-- Makes the working copy the committed contents. -/
def commit : Action Versions Unit := fun versions =>
  match versions.working with
  | some working => (.ok (), ⟨working, none⟩)
  | none => (.error (.transaction .noneActive), versions)

/-- Gives the working copy up. -/
def rollback : Action Versions Unit := fun versions =>
  match versions.working with
  | some _ => (.ok (), ⟨versions.committed, none⟩)
  | none => (.error (.transaction .noneActive), versions)

instance : Store Versions where
  fetchRows registry spec offset limit :=
    read fun contents => contents.fetchRows registry spec offset limit
  count _ spec :=
    read fun contents =>
      (Contents.countRows spec (contents.table spec.resource.name).rows).map Int.ofNat
  insert resource values := write fun contents => contents.insert resource values
  update resource key changes := write fun contents => contents.update resource key changes
  delete resource key := write fun contents => contents.delete resource key
  begin := begin
  commit := commit
  rollback := rollback
  inTransaction versions := versions.working.isSome
  prepare _ _ := pure ()

/-- The store in memory that holds some versions: the working copy is its contents, the
committed contents are its snapshot, and a transaction holds the lock once. -/
def stored (versions : Versions) : Memory where
  contents := versions.current
  snapshot := versions.working.map fun _ => versions.committed
  locks := if versions.working.isSome then 1 else 0

@[simp] theorem contents_stored (versions : Versions) :
    versions.stored.contents = versions.current := rfl

theorem stored_withCurrent (versions : Versions) (contents : Contents) :
    (versions.withCurrent contents).stored = { versions.stored with contents } := by
  obtain ⟨committed, working⟩ := versions
  cases working with
  | none => rfl
  | some working => rfl

theorem locks_stored (versions : Versions) :
    versions.stored.locks = if versions.stored.snapshot.isSome then 1 else 0 := by
  obtain ⟨committed, working⟩ := versions
  cases working with
  | none => rfl
  | some working => rfl

theorem read_mirrors (question : Contents → Except Error α) :
    Action.Mirrors stored (Memory.read question) (read question) :=
  fun _ => rfl

theorem write_mirrors (change : Contents → Except Error (α × Contents)) :
    Action.Mirrors stored (Memory.write change) (write change) := by
  intro versions
  rw [Action.perform, Memory.write_apply, Action.perform, write, contents_stored]
  cases change versions.current with
  | error error => rfl
  | ok written => exact congrArg (Prod.mk _) (stored_withCurrent versions written.2).symm

/-- The store in memory does to what it holds of some versions what the store of versions
does to them. -/
theorem stored_mirrors : Store.Mirrors stored where
  fetchRows _ _ _ _ := read_mirrors _
  count _ _ := read_mirrors _
  insert _ _ := write_mirrors _
  update _ _ _ := write_mirrors _
  delete _ _ := write_mirrors _
  begin := by
    rintro ⟨committed, working⟩
    cases working with
    | none => rfl
    | some working => rfl
  commit := by
    rintro ⟨committed, working⟩
    cases working with
    | none => rfl
    | some working => rfl
  rollback := by
    rintro ⟨committed, working⟩
    cases working with
    | none => rfl
    | some working => rfl

end Versions

namespace StoreCall

section Transactions

variable {τ : Type}

theorem get_quiet (registry : Registry) (spec : QuerySpec) :
    (Store.get registry spec : Action (Memory × τ) _).Ensures (· = ·) fun _ => True :=
  .bind (Memory.fetchRows_ensures registry spec none none) fun rows _ =>
    (Store.hydrate_ensures registry spec rows).weaken fun _ _ => trivial

theorem count_quiet (registry : Registry) (spec : QuerySpec) :
    (Store.count registry spec : Action (Memory × τ) _).Ensures (· = ·) fun _ => True :=
  fun _ => ⟨rfl, fun _ _ => trivial⟩

/-- The same transaction is open, or none is. -/
def SameTransaction (before after : Memory × τ) : Prop :=
  after.1.snapshot = before.1.snapshot ∧ after.1.locks = before.1.locks

instance : Std.Refl (@SameTransaction τ) := ⟨fun _ => ⟨rfl, rfl⟩⟩

theorem sameTransaction_of_quiet {α : Type} {action : Action (Memory × τ) α}
    (quiet : action.Ensures (· = ·) fun _ => True) :
    action.Ensures SameTransaction fun _ => True := by
  refine quiet.relax ?_
  rintro before _ rfl
  exact Std.Refl.refl before

theorem write_sameTransaction {α : Type} (change : Contents → Except Error (α × Contents)) :
    ((Memory.write change).onFirst : Action (Memory × τ) α).Ensures SameTransaction
      fun _ => True :=
  Memory.write_ensures change fun _ _ _ _ _ => ⟨rfl, rfl⟩

/-- Whether a call opens or closes a transaction. -/
def isBoundary : StoreCall → Bool
  | .begin => true
  | .commit => true
  | .rollback => true
  | _ => false

/-- Whether a call closes a transaction. -/
def closes : StoreCall → Bool
  | .commit => true
  | .rollback => true
  | _ => false

/-- The reply that is made of a result is what an action yields in the end. -/
theorem then_reply {α : Type} {relation : Memory × τ → Memory × τ → Prop}
    [Std.Refl relation] {action : Action (Memory × τ) α} {reply : α → StoreReply}
    (ensures : action.Ensures relation fun _ => True) :
    (action >>= fun value => pure (reply value)).Ensures relation fun _ => True := by
  intro state
  rw [Action.perform_bind]
  have related := (ensures state).1
  generalize action.perform state = run at related
  obtain ⟨result, after⟩ := run
  cases result with
  | error error => exact ⟨related, fun _ _ => trivial⟩
  | ok value => exact ⟨related, fun _ _ => trivial⟩

theorem action_sameTransaction {call : StoreCall} (inner : call.isBoundary = false) :
    (call.action : Action (Memory × τ) _).Ensures SameTransaction fun _ => True := by
  cases call with
  | insert resource values => exact then_reply (write_sameTransaction _)
  | update resource key changes => exact then_reply (write_sameTransaction _)
  | delete resource key => exact then_reply (write_sameTransaction _)
  | softDelete now resource key =>
      rw [action_softDelete]
      split
      · exact then_reply (write_sameTransaction _)
      · exact .throw _
  | restore resource key =>
      rw [action_restore]
      split
      · exact then_reply (write_sameTransaction _)
      · exact .throw _
  | get registry spec => exact then_reply (sameTransaction_of_quiet (get_quiet _ _))
  | count registry spec => exact then_reply (sameTransaction_of_quiet (count_quiet _ _))
  | begin => cases inner
  | commit => cases inner
  | rollback => cases inner

/-- Within a transaction every call but closing it keeps what it goes back to. -/
theorem action_keepsTransaction {call : StoreCall} (staysOpen : call.closes = false) :
    (call.action : Action (Memory × τ) _).Ensures Memory.KeepsTransaction fun _ => True := by
  cases boundary : call.isBoundary with
  | false => exact (action_sameTransaction boundary).relax fun _ _ same _ => same
  | true =>
      cases call with
      | begin => exact then_reply Memory.begin_keepsTransaction
      | commit => cases staysOpen
      | rollback => cases staysOpen
      | _ => cases boundary

theorem run_keepsTransaction {calls : List StoreCall}
    (staysOpen : ∀ call ∈ calls, call.closes = false) (state : Memory × τ) :
    Memory.KeepsTransaction state (after calls state) := by
  induction calls generalizing state with
  | nil => exact Std.Refl.refl state
  | cons call rest induction =>
      rw [List.forall_mem_cons] at staysOpen
      rw [after_cons]
      exact IsTrans.trans _ _ _ (action_keepsTransaction staysOpen.1 state).1
        (induction staysOpen.2 _)

/-- After any calls in a transaction that has just been opened, what it goes back to is still
the store before it. -/
theorem after_opened {inner : List StoreCall} (staysOpen : ∀ call ∈ inner, call.closes = false)
    (memory : Memory) :
    (after inner memory.opened).snapshot = memory.opened.snapshot ∧
      (after inner memory.opened).locks = memory.opened.locks := by
  have kept := run_keepsTransaction staysOpen (memory.opened, ()) rfl
  rwa [(run_mirrors (Store.mirrors_beside ()) inner memory.opened).2] at kept

end Transactions

/-! ## When a transaction is open -/

/-- Whether a transaction is open after a call and its reply, given whether one was open
before: to begin one opens it, and to commit it or to roll it back closes it, when that
succeeds. -/
def isOpenAfter (isOpen : Bool) : StoreCall × Except Error StoreReply → Bool
  | (.begin, .ok _) => true
  | (.commit, .ok _) => false
  | (.rollback, .ok _) => false
  | _ => isOpen

/-- Whether a transaction is open after a history of calls and replies. -/
def leavesOpen (history : List (StoreCall × Except Error StoreReply)) : Bool :=
  history.foldl isOpenAfter false

theorem isOpenAfter_action (call : StoreCall) (memory : Memory) :
    isOpenAfter memory.snapshot.isSome (call, (call.action.perform memory).1) =
      (call.action.perform memory).2.snapshot.isSome := by
  cases boundary : call.isBoundary with
  | true =>
      obtain ⟨contents, snapshot, locks⟩ := memory
      cases call with
      | begin => cases snapshot <;> rfl
      | commit => cases snapshot <;> rfl
      | rollback => cases snapshot <;> rfl
      | _ => cases boundary
  | false =>
      have same := (action_sameTransaction boundary (memory, ())).1
      rw [action_mirrors (Store.mirrors_beside ()) call memory] at same
      rw [same.1]
      cases call with
      | begin => cases boundary
      | commit => cases boundary
      | rollback => cases boundary
      | _ => rfl

theorem foldl_isOpenAfter (calls : List StoreCall) (memory : Memory) :
    (calls.zip (replies calls memory)).foldl isOpenAfter memory.snapshot.isSome =
      (after calls memory).snapshot.isSome := by
  induction calls generalizing memory with
  | nil => rfl
  | cons call rest induction =>
      rw [replies_cons, after_cons, List.zip_cons_cons, List.foldl_cons, isOpenAfter_action]
      exact induction _

end StoreCall

namespace Memory

/-- What a store in memory does about transactions while one is open, or while none is. -/
structure Transactional (isOpen : Bool) (memory : Memory) : Prop where
  inTransaction : Store.inTransaction memory = isOpen
  locks : memory.locks = if isOpen then 1 else 0
  /-- To begin a transaction within another fails and changes nothing. -/
  begin_again : isOpen = true →
    Action.perform (Store.begin : Action Memory Unit) memory =
      (.error (.transaction .alreadyActive), memory)
  /-- To commit without a transaction fails and changes nothing. -/
  commit_none : isOpen = false →
    Action.perform (Store.commit : Action Memory Unit) memory =
      (.error (.transaction .noneActive), memory)
  /-- To roll back without a transaction fails and changes nothing. -/
  rollback_none : isOpen = false →
    Action.perform (Store.rollback : Action Memory Unit) memory =
      (.error (.transaction .noneActive), memory)
  /-- Rolling back leads to the store before the transaction, whatever was called within. -/
  rolledBack : isOpen = false → ∀ inner : List StoreCall,
    (∀ call ∈ inner, call.closes = false) →
      (∃ between, StoreCall.replies (.begin :: inner ++ [.rollback]) memory =
        .ok .done :: between ++ [.ok .done]) ∧
      StoreCall.after (.begin :: inner ++ [.rollback]) memory = memory
  /-- Committing keeps the contents that the calls within have led to. -/
  committed : isOpen = false → ∀ inner : List StoreCall,
    (∀ call ∈ inner, call.closes = false) →
      (∃ between, StoreCall.replies (.begin :: inner ++ [.commit]) memory =
        .ok .done :: between ++ [.ok .done]) ∧
      StoreCall.after (.begin :: inner ++ [.commit]) memory =
        { memory with contents := (StoreCall.after (.begin :: inner) memory).contents }

theorem perform_action_begin {memory : Memory} (noneOpen : memory.snapshot = none) :
    StoreCall.begin.action.perform memory = (.ok .done, memory.opened) := by
  obtain ⟨contents, snapshot, locks⟩ := memory
  subst noneOpen
  rfl

theorem perform_action_commit {memory : Memory} {snapshot : Contents}
    (isOpen : memory.snapshot = some snapshot) :
    StoreCall.commit.action.perform memory = (.ok .done, memory.closed) := by
  obtain ⟨contents, _, locks⟩ := memory
  subst isOpen
  rfl

theorem perform_action_rollback {memory : Memory} {snapshot : Contents}
    (isOpen : memory.snapshot = some snapshot) :
    StoreCall.rollback.action.perform memory =
      (.ok .done, { memory with contents := snapshot }.closed) := by
  obtain ⟨contents, _, locks⟩ := memory
  subst isOpen
  rfl

/-- Keeping what a transaction has led to differs from the store before it in the contents
only. -/
theorem closed_opened {memory after : Memory} (noneOpen : memory.snapshot = none)
    (sameLocks : after.locks = memory.opened.locks) :
    after.closed = { memory with contents := after.contents } := by
  cases memory
  cases after
  simp_all [opened, closed, acquire, release]

section Within

variable {memory : Memory} {inner : List StoreCall}

theorem after_begin (noneOpen : memory.snapshot = none) :
    StoreCall.after (.begin :: inner) memory = StoreCall.after inner memory.opened := by
  rw [StoreCall.after_cons, perform_action_begin noneOpen]

/-- A transaction from its beginning to the call that closes it. -/
theorem run_closed {close : StoreCall} {final : Memory} (noneOpen : memory.snapshot = none)
    (closing : close.action.perform (StoreCall.after inner memory.opened) =
      (.ok .done, final)) :
    (∃ between, StoreCall.replies (.begin :: inner ++ [close]) memory =
        .ok .done :: between ++ [.ok .done]) ∧
      StoreCall.after (.begin :: inner ++ [close]) memory = final := by
  rw [← after_begin noneOpen] at closing
  constructor
  · refine ⟨StoreCall.replies inner memory.opened, ?_⟩
    rw [StoreCall.replies_append, StoreCall.replies_cons, StoreCall.replies_cons, closing,
      perform_action_begin noneOpen, StoreCall.replies_nil]
  · rw [StoreCall.after_append, StoreCall.after_cons, closing, StoreCall.after_nil]

end Within

/-- A store whose lock is held once while a transaction is open, and else not at all. -/
theorem transactional_of_locks {memory : Memory}
    (locks : memory.locks = if memory.snapshot.isSome then 1 else 0) :
    memory.Transactional memory.snapshot.isSome where
  inTransaction := rfl
  locks := locks
  begin_again isOpen := by
    obtain ⟨contents, snapshot, locks⟩ := memory
    cases snapshot with
    | none => cases isOpen
    | some snapshot => rfl
  commit_none noneOpen := by
    obtain ⟨contents, snapshot, locks⟩ := memory
    cases snapshot with
    | none => rfl
    | some snapshot => cases noneOpen
  rollback_none noneOpen := by
    obtain ⟨contents, snapshot, locks⟩ := memory
    cases snapshot with
    | none => rfl
    | some snapshot => cases noneOpen
  rolledBack noneOpen inner staysOpen := by
    rw [Option.isSome_eq_false_iff, Option.isNone_iff_eq_none] at noneOpen
    obtain ⟨sameSnapshot, sameLocks⟩ := StoreCall.after_opened staysOpen memory
    have closed := run_closed noneOpen (perform_action_rollback sameSnapshot)
    rwa [rollback_opened noneOpen sameSnapshot sameLocks] at closed
  committed noneOpen inner staysOpen := by
    rw [Option.isSome_eq_false_iff, Option.isNone_iff_eq_none] at noneOpen
    obtain ⟨sameSnapshot, sameLocks⟩ := StoreCall.after_opened staysOpen memory
    rw [after_begin noneOpen, ← closed_opened noneOpen sameLocks]
    exact run_closed noneOpen (perform_action_commit sameSnapshot)

end Memory

/-- The store in memory replies to any calls as committed contents with an optional working
copy do, and holds what they hold: while a transaction is open reads and writes use the
working copy, committing makes it the committed contents and rolling back gives it up.  A
transaction is open exactly after one was begun and not yet closed. -/
theorem Memory.run_versions (contents : Contents) (calls : List StoreCall) :
    StoreCall.replies calls ({ contents } : Memory) =
        StoreCall.replies calls ({ committed := contents } : Versions) ∧
      StoreCall.after calls ({ contents } : Memory) =
        (StoreCall.after calls ({ committed := contents } : Versions)).stored ∧
      (StoreCall.after calls ({ contents } : Memory)).Transactional
        (StoreCall.leavesOpen (calls.zip (StoreCall.replies calls ({ contents } : Memory)))) := by
  obtain ⟨sameReplies, sameAfter⟩ :=
    StoreCall.run_mirrors Versions.stored_mirrors calls { committed := contents }
  have isOpen : StoreCall.leavesOpen (calls.zip (StoreCall.replies calls _)) =
      (StoreCall.after calls ({ contents } : Memory)).snapshot.isSome :=
    StoreCall.foldl_isOpenAfter calls ({ contents } : Memory)
  refine ⟨sameReplies, sameAfter, ?_⟩
  rw [isOpen]
  refine transactional_of_locks ?_
  exact sameAfter ▸ Versions.locks_stored _

end ResourceServer
