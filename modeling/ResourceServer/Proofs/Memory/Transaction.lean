import ResourceServer.Memory
import ResourceServer.Proofs.Action

/-!
# Transactions of the store in memory

A store in memory is taken beside any other state, such as what hooks remember between
their calls.  Reading leaves the store as it is, a write changes its contents only, and no
operation but closing touches a transaction that is open.
-/

namespace ResourceServer

namespace Memory

variable {τ α : Type}

/-- The store in a transaction that has just been opened. -/
def opened (memory : Memory) : Memory :=
  { memory.acquire with snapshot := some memory.contents }

/-- The store after its transaction is closed. -/
def closed (memory : Memory) : Memory := { memory with snapshot := none }.release

/-- A transaction that is open stays open, with the same contents to go back to. -/
def KeepsTransaction (before after : Memory × τ) : Prop :=
  before.1.snapshot.isSome →
    after.1.snapshot = before.1.snapshot ∧ after.1.locks = before.1.locks

instance : Std.Refl (@KeepsTransaction τ) := ⟨fun _ _ => ⟨rfl, rfl⟩⟩

instance : IsTrans (Memory × τ) KeepsTransaction where
  trans before middle after first second isOpen := by
    obtain ⟨snapshotFirst, locksFirst⟩ := first isOpen
    obtain ⟨snapshotSecond, locksSecond⟩ := second (by rwa [snapshotFirst])
    exact ⟨snapshotSecond.trans snapshotFirst, locksSecond.trans locksFirst⟩

/-! ## Operations -/

theorem perform_fetchRows (registry : Registry) (spec : QuerySpec) (offset limit : Option Int)
    (memory : Memory) (side : τ) :
    (Store.fetchRows registry spec offset limit : Action (Memory × τ) _).perform (memory, side) =
      (memory.contents.fetchRows registry spec offset limit, (memory, side)) := rfl

theorem perform_count (registry : Registry) (spec : QuerySpec) (memory : Memory) (side : τ) :
    (Store.count registry spec : Action (Memory × τ) _).perform (memory, side) =
      ((Contents.countRows spec (memory.contents.table spec.resource.name).rows).map Int.ofNat,
        (memory, side)) := rfl

theorem yields_fetchRows {registry : Registry} {spec : QuerySpec} {offset limit : Option Int}
    {memory : Memory} {side : τ} {rows : List Record} :
    (Store.fetchRows registry spec offset limit : Action (Memory × τ) _).Yields (memory, side) rows ↔
      memory.contents.fetchRows registry spec offset limit = .ok rows := by
  rw [Action.Yields, perform_fetchRows, Prod.mk.injEq, and_iff_left rfl]

theorem fetchRows_ensures (registry : Registry) (spec : QuerySpec) (offset limit : Option Int) :
    (Store.fetchRows registry spec offset limit : Action (Memory × τ) _).Ensures (· = ·)
      fun _ => True :=
  fun _ => ⟨rfl, fun _ _ => trivial⟩

theorem perform_write (change : Contents → Except Error (α × Contents)) (memory : Memory)
    (side : τ) :
    ((write change).onFirst : Action (Memory × τ) α).perform (memory, side) =
      match change memory.contents with
      | .ok (result, contents) => (.ok result, ({ memory with contents }, side))
      | .error error => (.error error, (memory, side)) := by
  rw [Action.perform_onFirst, Action.perform, write_apply]
  cases change memory.contents <;> rfl

/-- A write that succeeds puts the contents it has computed in the place of the old ones, and
one that fails changes nothing. -/
theorem write_ensures {relation : Memory × τ → Memory × τ → Prop} [Std.Refl relation]
    (change : Contents → Except Error (α × Contents))
    (related : ∀ memory side result contents, change memory.contents = .ok (result, contents) →
      relation (memory, side) ({ memory with contents }, side)) :
    ((write change).onFirst : Action (Memory × τ) α).Ensures relation fun _ => True := by
  intro state
  obtain ⟨memory, side⟩ := state
  rw [perform_write]
  cases changed : change memory.contents with
  | error error => exact ⟨Std.Refl.refl _, fun _ _ => trivial⟩
  | ok pair =>
      obtain ⟨result, contents⟩ := pair
      exact ⟨related memory side result contents changed, fun _ _ => trivial⟩

theorem write_keepsTransaction (change : Contents → Except Error (α × Contents)) :
    ((write change).onFirst : Action (Memory × τ) α).Ensures KeepsTransaction fun _ => True :=
  write_ensures change fun _ _ _ _ _ _ => ⟨rfl, rfl⟩

theorem insert_keepsTransaction (resource : Resource) (values : Record) :
    (Store.insert resource values : Action (Memory × τ) _).Ensures KeepsTransaction
      fun _ => True :=
  write_keepsTransaction _

theorem update_keepsTransaction (resource : Resource) (key : Value) (changes : Record) :
    (Store.update resource key changes : Action (Memory × τ) _).Ensures KeepsTransaction
      fun _ => True :=
  write_keepsTransaction _

theorem delete_keepsTransaction (resource : Resource) (key : Value) :
    (Store.delete resource key : Action (Memory × τ) _).Ensures KeepsTransaction
      fun _ => True :=
  write_keepsTransaction _

theorem perform_begin {memory : Memory} (noneOpen : memory.snapshot = none) (side : τ) :
    (Store.begin : Action (Memory × τ) Unit).perform (memory, side) =
      (.ok (), (memory.opened, side)) := by
  change Action.perform begin.onFirst _ = _
  rw [Action.perform_onFirst]
  simp [Action.perform, begin, noneOpen, opened]

/-- A second transaction cannot be opened, and trying it changes nothing. -/
theorem perform_begin_again {memory : Memory} {snapshot : Contents}
    (isOpen : memory.snapshot = some snapshot) (side : τ) :
    (Store.begin : Action (Memory × τ) Unit).perform (memory, side) =
      (.error (.transaction .alreadyActive), (memory, side)) := by
  change Action.perform begin.onFirst _ = _
  rw [Action.perform_onFirst]
  simp [Action.perform, begin, isOpen]

theorem begin_keepsTransaction :
    (Store.begin : Action (Memory × τ) Unit).Ensures KeepsTransaction fun _ => True := by
  intro state
  obtain ⟨memory, side⟩ := state
  refine ⟨?_, fun _ _ => trivial⟩
  intro isOpen
  obtain ⟨snapshot, isSnapshot⟩ := Option.isSome_iff_exists.mp isOpen
  rw [perform_begin_again isSnapshot]
  exact ⟨rfl, rfl⟩

theorem perform_commit {memory : Memory} {snapshot : Contents}
    (isOpen : memory.snapshot = some snapshot) (side : τ) :
    (Store.commit : Action (Memory × τ) Unit).perform (memory, side) =
      (.ok (), (memory.closed, side)) := by
  change Action.perform commit.onFirst _ = _
  rw [Action.perform_onFirst]
  simp [Action.perform, commit, close, isOpen, closed]

theorem perform_rollback {memory : Memory} {snapshot : Contents}
    (isOpen : memory.snapshot = some snapshot) (side : τ) :
    (Store.rollback : Action (Memory × τ) Unit).perform (memory, side) =
      (.ok (), ({ memory with contents := snapshot }.closed, side)) := by
  change Action.perform rollback.onFirst _ = _
  rw [Action.perform_onFirst]
  simp [Action.perform, rollback, close, isOpen, closed]

/-- Going back from anywhere in a transaction leads to the store before it was opened. -/
theorem rollback_opened {memory after : Memory} (noneOpen : memory.snapshot = none)
    (sameSnapshot : after.snapshot = memory.opened.snapshot)
    (sameLocks : after.locks = memory.opened.locks) :
    { after with contents := memory.contents }.closed = memory := by
  cases memory
  cases after
  simp_all [opened, closed, acquire, release]

end Memory

end ResourceServer
