import ResourceServer.Proofs.Batch.Recording
import ResourceServer.Proofs.Endpoint

/-!
# Transaction of a batch

A batch that has been checked opens a transaction, runs, and closes the transaction: it keeps
what was written when it comes to an outcome, and takes it back when it fails.  Over a store
in memory, with an authorizer and hooks that leave transactions alone, both always succeed.
A recorded batch goes through the same transaction, so its notes account for the whole run.
-/

namespace ResourceServer

namespace BatchSteps

variable {σ τ : Type}

theorem perform_run [Store σ] (steps : BatchSteps σ) (context : BatchContext)
    (plan : BatchPlan) (state : σ) :
    (steps.run context plan).perform state =
      match (Store.begin : Action σ Unit).perform state with
      | (.error error, after) => (.error error, after)
      | (.ok (), opened) =>
          match (steps.execute context plan).perform opened with
          | (.error error, after) =>
              (.error error, ((Store.rollback : Action σ Unit).perform after).2)
          | (.ok outcome, after) =>
              (((Store.commit : Action σ Unit).perform after).1.map fun _ => outcome,
                ((Store.commit : Action σ Unit).perform after).2) := by
  rw [run, Action.perform_bind]
  cases (Store.begin : Action σ Unit).perform state with
  | mk result opened =>
      cases result with
      | error error => rfl
      | ok begun =>
          dsimp only
          rw [Action.perform_bind, Action.perform_attempt]
          cases (steps.execute context plan).perform opened with
          | mk result after =>
              cases result with
              | error error => rfl
              | ok outcome =>
                  dsimp only
                  rw [Action.perform_bind]
                  cases (Store.commit : Action σ Unit).perform after with
                  | mk result after => cases result <;> rfl

variable {steps : BatchSteps (Memory × τ)} {context : BatchContext} {plan : BatchPlan}
variable {memory : Memory}

/-- In memory, an outcome closes the transaction over what was written, and a failure leads
back to the store before the batch. -/
theorem perform_run_memory
    (keeps : (steps.execute context plan).Ensures Memory.KeepsTransaction fun _ => True)
    (noneOpen : memory.snapshot = none) (side : τ) :
    (steps.run context plan).perform (memory, side) =
      match (steps.execute context plan).perform (memory.opened, side) with
      | (.error error, after) => (.error error, (memory, after.2))
      | (.ok outcome, after) => (.ok outcome, (after.1.closed, after.2)) := by
  rw [perform_run, Memory.perform_begin noneOpen]
  have kept := (keeps (memory.opened, side)).1 rfl
  dsimp only
  revert kept
  generalize (steps.execute context plan).perform (memory.opened, side) = executed
  obtain ⟨result, after, sideAfter⟩ := executed
  intro kept
  cases result with
  | error error =>
      dsimp only
      rw [Memory.perform_rollback kept.1, Memory.rollback_opened noneOpen kept.1 kept.2]
  | ok outcome =>
      dsimp only
      rw [Memory.perform_commit kept.1]
      rfl

/-- A recorded batch runs like the batch, and its notes account for what happened inside the
transaction. -/
theorem recorded_run (steps : BatchSteps (Memory × τ)) (plan : BatchPlan)
    (noneDone : context.entities = [])
    (unchanging : ∀ state, ((steps.targets context plan).perform state).2 = state)
    (noneOpen : memory.snapshot = none) (side : τ) :
    let ran := (steps.run context plan).perform (memory, side)
    let inside := (steps.execute context plan).perform (memory.opened, side)
    ∃ log,
      (steps.recorded.run context plan).perform ((memory, side), []) = (ran.1, (ran.2, log)) ∧
        steps.Follows context plan (memory.opened, side) log inside.1 inside.2 := by
  obtain ⟨log, same, follows⟩ :=
    steps.execute_follows noneDone plan unchanging (memory.opened, side) []
  refine ⟨log, ?_, follows⟩
  have begun : (Store.begin : Action (Recorded (Memory × τ)) Unit).perform ((memory, side), []) =
      (.ok (), ((memory.opened, side), [])) := by
    change Action.perform (Action.onFirst Store.begin) _ = _
    rw [Action.perform_onFirst, Memory.perform_begin noneOpen]
  rw [perform_run, perform_run, begun, Memory.perform_begin noneOpen]
  dsimp only
  rw [same]
  cases (steps.execute context plan).perform (memory.opened, side) with
  | mk result after => cases result <;> rfl

end BatchSteps

namespace Endpoint

/-- Runs a batch and notes its calls. -/
def recordedBatch {σ : Type} [Store σ] (endpoint : Endpoint σ) (verb : BatchVerb)
    (request : Request) (input : BatchInput) : Action (Recorded σ) BatchOutcome := do
  let (context, plan) ← Action.ofExcept (endpoint.prepareBatch verb request input)
  (endpoint.steps (endpoint.binding.hooksFor verb)).recorded.run context plan

variable {τ : Type} {endpoint : Endpoint (Memory × τ)} {verb : BatchVerb} {request : Request}
variable {input : BatchInput} {context : BatchContext} {plan : BatchPlan} {memory : Memory}

/-- Inside its transaction, no step of a batch touches the transaction. -/
theorem execute_keepsTransaction
    (leaves : endpoint.binding.Respects Memory.KeepsTransaction fun _ _ => True)
    (noneDone : context.entities = []) :
    ((endpoint.steps (endpoint.binding.hooksFor verb)).execute context plan).Ensures
      Memory.KeepsTransaction fun _ => True := by
  have writes : ∀ done target entity, True → True →
      (endpoint.mutate { context with entities := done } target entity).Ensures
        Memory.KeepsTransaction fun _ => True := by
    intro done target entity _ _
    exact endpoint.mutate_ensures _ target entity
      (fun _ values => Memory.insert_keepsTransaction _ values)
      (fun _ changes => Memory.update_keepsTransaction _ _ changes)
      (fun _ => Memory.delete_keepsTransaction _ _)
  have respects := steps_respects leaves writes (fun _ _ _ => trivial) verb
  have found : (endpoint.targets { context with entities := [] } plan).Ensures
      Memory.KeepsTransaction fun targets => ∀ target ∈ targets, True := by
    refine ((endpoint.targets_ensures _ plan).relax ?_).weaken fun _ _ _ _ => trivial
    rintro before after rfl
    exact Std.Refl.refl before
  have executes := respects.execute [] plan found
  rwa [show { context with entities := [] } = context by rw [← noneDone]] at executes

/-- A batch that cannot be checked makes no call and leaves the store alone. -/
theorem runBatch_unprepared {error : Error}
    (failed : endpoint.prepareBatch verb request input = .error error) :
    endpoint.runBatch verb request input = throw error ∧
      endpoint.recordedBatch verb request input = throw error := by
  unfold runBatch recordedBatch
  rw [failed]
  exact ⟨rfl, rfl⟩

theorem runBatch_prepared
    (prepared : endpoint.prepareBatch verb request input = .ok (context, plan)) :
    endpoint.runBatch verb request input =
        (endpoint.steps (endpoint.binding.hooksFor verb)).run context plan ∧
      endpoint.recordedBatch verb request input =
        (endpoint.steps (endpoint.binding.hooksFor verb)).recorded.run context plan := by
  unfold runBatch recordedBatch
  rw [prepared]
  exact ⟨rfl, rfl⟩

/-- A batch that has been checked runs in a transaction of its own.  Its notes account for what
happens inside, which is kept with an outcome and taken back with a failure. -/
theorem runBatch_account
    (leaves : endpoint.binding.Respects Memory.KeepsTransaction fun _ _ => True)
    (noneOpen : memory.snapshot = none) (side : τ)
    (prepared : endpoint.prepareBatch verb request input = .ok (context, plan)) :
    let ran := (endpoint.runBatch verb request input).perform (memory, side)
    ∃ log inside,
      (endpoint.recordedBatch verb request input).perform ((memory, side), []) =
          (ran.1, (ran.2, log)) ∧
        (endpoint.steps (endpoint.binding.hooksFor verb)).Follows context plan
            (memory.opened, side) log ran.1 inside ∧
          inside.1.locks = memory.locks + 1 ∧
            ran.2 = match ran.1 with
              | .error _ => (memory, inside.2)
              | .ok _ => (inside.1.closed, inside.2) := by
  have noneDone : context.entities = [] := by
    obtain ⟨_, _, _, _, _, _, rfl⟩ := prepareBatch_eq_ok prepared
    rfl
  have keeps : ((endpoint.steps (endpoint.binding.hooksFor verb)).execute context plan).Ensures
      Memory.KeepsTransaction fun _ => True := execute_keepsTransaction leaves noneDone
  have unchanging : ∀ state, ((endpoint.targets context plan).perform state).2 = state :=
    fun state => (endpoint.targets_ensures context plan state).1.symm
  have account := BatchSteps.recorded_run (endpoint.steps (endpoint.binding.hooksFor verb))
    plan noneDone unchanging noneOpen side
  have locked := ((keeps (memory.opened, side)).1 rfl).2
  rw [(runBatch_prepared prepared).1, (runBatch_prepared prepared).2]
  rw [BatchSteps.perform_run_memory keeps noneOpen] at account ⊢
  revert account locked
  generalize (BatchSteps.execute _ context plan).perform (memory.opened, side) = executed
  obtain ⟨result, inside⟩ := executed
  rintro ⟨log, same, follows⟩ locked
  cases result with
  | error error => exact ⟨log, inside, same, follows, locked, rfl⟩
  | ok outcome => exact ⟨log, inside, same, follows, locked, rfl⟩

end Endpoint

end ResourceServer
