import Mathlib.Data.List.Forall2
import ResourceServer.Filter.Evaluation

/-!
# Runs of siblings

The children of a group are looked at one after the other, and a child that cannot decide the
outcome any more is not looked at.  What comes out is whether all members of some run hold.  That
is a fact about pairs: whether a child opens a run, and whether it holds.  A child that goes on the
run before it can be merged into its predecessor, and one that opens a run splits the siblings.
-/

namespace ResourceServer.Filter

/-- Whether a filter holds on a row; one that cannot be evaluated does not. -/
def Node.holds (row : Record) (node : Node) : Bool :=
  match node.evaluate row with
  | .ok holds => holds
  | .error _ => false

theorem Node.holds_eq_true {row : Record} {node : Node} :
    node.holds row = true ↔ node.evaluate row = .ok true := by
  unfold holds
  cases node.evaluate row with
  | error error => simp
  | ok holds => simp

theorem Node.holds_of_evaluate {row : Record} {node : Node} {holds : Bool}
    (evaluated : node.evaluate row = .ok holds) : node.holds row = holds := by
  rw [Node.holds, evaluated]

/-- The item in front of others begins the first run, whatever it is. -/
theorem runsBy_cons {α : Type} (opens : α → Bool) (rest : List α) :
    ∃ run others, ∀ item, runsBy opens (item :: rest) = (item :: run) :: others := by
  induction rest with
  | nil => exact ⟨[], [], fun item => rfl⟩
  | cons following rest induction =>
      obtain ⟨run, others, split⟩ := induction
      cases starts : opens following with
      | true =>
          refine ⟨[], (following :: run) :: others, fun item => ?_⟩
          rw [runsBy, split following, consRun, if_pos starts]
      | false =>
          refine ⟨following :: run, others, fun item => ?_⟩
          rw [runsBy, split following, consRun, if_neg (by simp [starts])]

/-- Whether all members of some run hold. -/
def someRunHolds (pairs : List (Bool × Bool)) : Bool :=
  (runsBy Prod.fst pairs).any fun run => run.all Prod.snd

section Pairs

variable {opens holds next : Bool} {rest : List (Bool × Bool)}

@[simp] theorem someRunHolds_nil : someRunHolds [] = false := by
  simp [someRunHolds, runsBy]

@[simp] theorem someRunHolds_singleton : someRunHolds [(opens, holds)] = holds := by
  simp [someRunHolds, runsBy, consRun]

/-- A sibling that goes on a run counts as one with its predecessor. -/
@[simp] theorem someRunHolds_and :
    someRunHolds ((opens, holds) :: (false, next) :: rest) =
      someRunHolds ((opens, holds && next) :: rest) := by
  obtain ⟨run, others, split⟩ := runsBy_cons Prod.fst rest
  have merged : runsBy Prod.fst ((opens, holds) :: (false, next) :: rest) =
      ((opens, holds) :: (false, next) :: run) :: others := by
    rw [runsBy, split]
    simp [consRun]
  simp [someRunHolds, split, merged, Bool.and_assoc]

/-- A sibling that opens a run begins anew. -/
@[simp] theorem someRunHolds_or :
    someRunHolds ((opens, holds) :: (true, next) :: rest) =
      (holds || someRunHolds ((true, next) :: rest)) := by
  obtain ⟨run, others, split⟩ := runsBy_cons Prod.fst rest
  have begun : runsBy Prod.fst ((opens, holds) :: (true, next) :: rest) =
      [(opens, holds)] :: ((true, next) :: run) :: others := by
    rw [runsBy, split]
    simp [consRun]
  simp [someRunHolds, split, begun]

end Pairs

/-- The walk over the siblings of a group: it has the outcome that the runs have. -/
theorem evaluateRest_eq {record : Record} {nodes : List Node} {pairs : List (Bool × Bool)}
    (each : List.Forall₂ (fun node pair =>
      node.opensRun = pair.1 ∧ node.evaluate record = .ok pair.2) nodes pairs)
    (opens holds : Bool) :
    Node.evaluateRest record holds nodes = .ok (someRunHolds ((opens, holds) :: pairs)) := by
  -- The pair in front stands for its run so far: a member that goes on the run is merged into it.
  induction each generalizing opens holds with
  | nil => simp [Node.evaluateRest]
  | @cons node pair nodes pairs first others induction =>
      obtain ⟨following, next⟩ := pair
      obtain ⟨starts, evaluated⟩ := first
      rw [Node.evaluateRest, starts, evaluated]
      cases following with
      | true =>
          have begun := induction true next
          cases holds <;> simp [begun, bind, Except.bind]
      | false =>
          have merged := induction opens (holds && next)
          cases holds <;> simpa [bind, Except.bind] using merged

end ResourceServer.Filter
