import ResourceServer.Proofs.Batch.Atomicity
import ResourceServer.Proofs.Batch.Single
import ResourceServer.Proofs.Carrying.Answers
import ResourceServer.Proofs.Confinement

/-!
# All or nothing

A writing operation runs one batch and then makes an answer of its outcome.  A batch that fails
is taken back.  After a batch that comes to an outcome one thing can still fail: a batch on one
row that has found no row leaves nothing to answer with.  By then its transaction is closed, and
whatever its hooks have written at the points of the batch stays.
-/

namespace ResourceServer

namespace BatchSteps

variable {σ : Type} {steps : BatchSteps σ} {context : BatchContext} {plan : BatchPlan}

/-- Unless a hook responds, every target becomes an entity that is done. -/
theorem processAll_counts (steps : BatchSteps σ) (context : BatchContext)
    (targets : List BatchTarget) :
    (steps.processAll context targets).Ensures (fun _ _ => True) fun reached =>
      reached.2 = none → reached.1.entities.length = context.entities.length + targets.length := by
  induction targets generalizing context with
  | nil => exact .pure fun _ => rfl
  | cons target rest induction =>
      refine .bind (.always _) fun result _ => ?_
      cases result with
      | error response => exact .pure nofun
      | ok entity =>
          refine (induction (context.withDone entity)).weaken fun reached counts passed => ?_
          rw [counts passed, BatchContext.withDone, List.length_append, List.length_singleton,
            List.length_cons]
          omega

/-- A batch that ends with neither entities nor a response has found no target, so that only the
hooks before and after the batch were called. -/
theorem execute_nothing {before after : σ} {outcome : BatchOutcome}
    (done : (steps.execute context plan).perform before = (.ok outcome, after))
    (unanswered : outcome.response = none) (nothing : outcome.entities = []) :
    ∃ opened found,
      (steps.atBatch .beforeBatch context).run.perform before = (.ok (.ok ()), opened) ∧
        (steps.targets context plan).perform opened = (.ok [], found) ∧
          (steps.atBatch .afterBatch context).run.perform found = (.ok (.ok ()), after) := by
  obtain ⟨passed, opened, hooksBefore, done⟩ := Action.perform_bind_eq_ok.mp done
  cases passed with
  | error response =>
      cases done
      cases unanswered
  | ok passed =>
      obtain ⟨targets, found, search, done⟩ := Action.perform_bind_eq_ok.mp done
      obtain ⟨⟨reached, response⟩, processed, process, done⟩ := Action.perform_bind_eq_ok.mp done
      cases response with
      | some response =>
          cases done
          cases unanswered
      | none =>
          obtain ⟨concluded, _, hooksAfter, done⟩ := Action.perform_bind_eq_ok.mp done
          cases concluded with
          | error response =>
              cases done
              cases unanswered
          | ok passed =>
              cases done
              have counts := ((steps.processAll_counts context targets).relatesOk process).2 rfl
              change reached.entities = [] at nothing
              rw [nothing, List.length_nil] at counts
              obtain rfl : targets = [] := List.eq_nil_of_length_eq_zero (by omega)
              cases process
              exact ⟨opened, found, hooksBefore, search, hooksAfter⟩

end BatchSteps

/-- Its calls at the points of a batch leave the store alone. -/
def HookSet.SparesBatch {τ : Type} (set : HookSet (Memory × τ)) : Prop :=
  ∀ point context, (set.atBatch point context).Ensures Endpoint.Untouched fun _ => True

/-- The verb and the key of an operation on one row that exists. -/
def Operation.row? : Operation → Option (BatchVerb × Value)
  | .update key => some (.update, key)
  | .destroy key => some (.destroy, key)
  | .restore key => some (.restore, key)
  | _ => none

namespace Endpoint

variable {τ : Type} {endpoint : Endpoint (Memory × τ)} {verb : BatchVerb} {request : Request}
variable {input : BatchInput} {memory : Memory} {side : τ} {after : Memory × τ}

/-- A batch that fails leaves the store as it was. -/
theorem runBatch_takenBack
    (leaves : endpoint.binding.Respects Memory.KeepsTransaction fun _ _ => True)
    (noneOpen : memory.snapshot = none) {error : Error}
    (failed : (endpoint.runBatch verb request input).perform (memory, side) =
      (.error error, after)) : after.1 = memory := by
  cases prepared : endpoint.prepareBatch verb request input with
  | error unprepared =>
      rw [(runBatch_unprepared prepared).1] at failed
      cases failed
      rfl
  | ok both =>
      obtain ⟨context, plan⟩ := both
      obtain ⟨_, inside, _, _, _, left⟩ := runBatch_account leaves noneOpen side prepared
      rw [failed] at left
      change after = (memory, inside.2) at left
      rw [left]

/-- A batch that comes to an outcome has run inside a transaction, which is closed. -/
theorem runBatch_committed
    (leaves : endpoint.binding.Respects Memory.KeepsTransaction fun _ _ => True)
    (noneOpen : memory.snapshot = none) {outcome : BatchOutcome}
    (done : (endpoint.runBatch verb request input).perform (memory, side) =
      (.ok outcome, after)) :
    ∃ context plan inside, endpoint.prepareBatch verb request input = .ok (context, plan) ∧
      ((endpoint.steps (endpoint.binding.hooksFor verb)).execute context plan).perform
          (memory.opened, side) = (.ok outcome, inside) ∧
        after = (inside.1.closed, inside.2) := by
  obtain ⟨⟨context, plan⟩, prepared, done⟩ := Action.perform_compute_eq_ok.mp done
  have noneDone : context.entities = [] := by
    obtain ⟨_, _, _, _, _, _, rfl⟩ := prepareBatch_eq_ok prepared
    rfl
  rw [BatchSteps.perform_run_memory (execute_keepsTransaction leaves noneDone) noneOpen] at done
  cases executed : ((endpoint.steps (endpoint.binding.hooksFor verb)).execute context
      plan).perform (memory.opened, side) with
  | mk result inside =>
      rw [executed] at done
      cases result with
      | error error => cases done
      | ok reached =>
          cases done
          exact ⟨context, plan, inside, prepared, executed, rfl⟩

/-- A batch that ends with neither entities nor a response has changed the store only through
hooks at the points of the batch. -/
theorem runBatch_nothing
    (leaves : endpoint.binding.Respects Memory.KeepsTransaction fun _ _ => True)
    (noneOpen : memory.snapshot = none)
    (spared : (endpoint.binding.hooksFor verb).Every HookSet.SparesBatch)
    {outcome : BatchOutcome}
    (done : (endpoint.runBatch verb request input).perform (memory, side) = (.ok outcome, after))
    (unanswered : outcome.response = none) (nothing : outcome.entities = []) :
    after.1 = memory := by
  obtain ⟨context, plan, inside, _, executed, rfl⟩ := runBatch_committed leaves noneOpen done
  obtain ⟨opened, found, hooksBefore, search, hooksAfter⟩ :=
    BatchSteps.execute_nothing executed unanswered nothing
  have hooksSpare : ∀ point, Interruptible.Ensures Untouched (fun _ => True)
      ((endpoint.steps (endpoint.binding.hooksFor verb)).atBatch point context) := by
    intro point
    refine proceeding_ensures ?_
    exact .bind (Hooks.atBatch_keeps spared point context) fun _ _ => .pure trivial
  have first : opened.1 = memory.opened := ((hooksSpare .beforeBatch).relatesOk hooksBefore).1
  have second : opened = found := ((endpoint.targets_ensures context plan).relatesOk search).1
  have third : inside.1 = found.1 := ((hooksSpare .afterBatch).relatesOk hooksAfter).1
  have closes : { memory.opened with contents := memory.contents }.closed = memory :=
    Memory.rollback_opened noneOpen rfl rfl
  rw [third, ← second, first]
  exact closes

/-- A batch that stores one payload ends with an entity or with a response. -/
theorem runBatch_storesSomething {payload : Value}
    (leaves : endpoint.binding.Respects Memory.KeepsTransaction fun _ _ => True)
    (noneOpen : memory.snapshot = none) {outcome : BatchOutcome}
    (done : (endpoint.runBatch .store request (.given (.list [payload]))).perform
      (memory, side) = (.ok outcome, after)) :
    outcome.response ≠ none ∨ outcome.entities ≠ [] := by
  by_contra neither
  obtain ⟨unanswered, nothing⟩ := not_or.mp neither
  obtain ⟨context, plan, _, prepared, executed, _⟩ := runBatch_committed leaves noneOpen done
  obtain ⟨opened, found, _, search, _⟩ :=
    BatchSteps.execute_nothing executed (not_not.mp unanswered) (not_not.mp nothing)
  obtain ⟨isPlan, _⟩ := prepareBatch_eq_ok prepared
  obtain ⟨payloads, rfl, isOne⟩ := ofInput_store isPlan
  change (pure (payloads.map _) : Action (Memory × τ) _).perform opened = _ at search
  rw [Action.perform_pure, Prod.mk.injEq, Except.ok.injEq, List.map_eq_nil_iff] at search
  rw [search.1] at isOne
  cases isOne

/-- Only a batch that ends with neither entities nor a response cannot be answered. -/
theorem answerSingle_eq_error {key : Value} {outcome : BatchOutcome} {state : Memory × τ}
    {error : Error}
    (failed : (endpoint.answerSingle key outcome).perform state = (.error error, after)) :
    after = state ∧ error = .notFound endpoint.name key ∧
      outcome.response = none ∧ outcome.entities = [] := by
  obtain ⟨entities, response, requested⟩ := outcome
  unfold answerSingle at failed
  cases response with
  | some response => cases failed
  | none =>
      cases entities with
      | cons entity rest => cases failed
      | nil =>
          cases failed
          exact ⟨rfl, rfl, rfl, rfl⟩

/-- An operation on one row that fails leaves the store as it was, unless its batch has found no
row and hooks have written around it. -/
theorem answered_takenBack {key : Value} {error : Error}
    (leaves : endpoint.binding.Respects Memory.KeepsTransaction fun _ _ => True)
    (noneOpen : memory.snapshot = none)
    (failed : (endpoint.runBatch verb request input >>= endpoint.answerSingle key).perform
      (memory, side) = (.error error, after))
    (nothing : ∀ outcome, error = .notFound endpoint.name key →
      (endpoint.runBatch verb request input).perform (memory, side) = (.ok outcome, after) →
        outcome.response = none → outcome.entities = [] → after.1 = memory) :
    after.1 = memory := by
  cases ran : (endpoint.runBatch verb request input).perform (memory, side) with
  | mk result middle =>
      cases result with
      | error raised =>
          rw [Action.perform_bind_error ran] at failed
          cases failed
          exact runBatch_takenBack leaves noneOpen ran
      | ok outcome =>
          rw [Action.perform_bind_ok ran] at failed
          obtain ⟨rfl, isNotFound, unanswered, empty⟩ := answerSingle_eq_error failed
          exact nothing outcome isNotFound ran unanswered empty

end Endpoint

variable {τ : Type}

/-- Hooks that remove the first row before a batch. -/
def clearingHooks : HookSet (Memory × τ) where
  atBatch point context := do
    if point = .beforeBatch then
      let _ ← (Store.delete context.resource (.int 1) : Action (Memory × τ) Int)
    pure .proceed

theorem clearingHooks_respects :
    (clearingHooks : HookSet (Memory × τ)).Respects Memory.KeepsTransaction fun _ _ => True where
  atBatch point context := by
    change Action.Ensures _ _ (ite _ _ _)
    split
    · exact .bind (Memory.delete_keepsTransaction _ _) fun _ _ => .pure trivial
    · exact .pure trivial
  atEntity _ _ _ := .pure trivial

/-- An endpoint for the nodes of a tree whose hooks write before any node is destroyed, and at every
point of a node that is updated. -/
def carelessEndpoint : Endpoint (Memory × Unit) where
  registry := {}
  now := Samples.Library.trashedAt
  binding := { resource := Samples.Library.nodes, hooks :=
    [(.destroy, .single clearingHooks), (.update, .single unrulyHooks)] }

theorem carelessEndpoint_respects :
    carelessEndpoint.binding.Respects Memory.KeepsTransaction fun _ _ => True where
  authorizer _ _ _ := .pure fun _ _ _ _ => trivial
  hooks verb := by
    cases verb with
    | destroy => exact clearingHooks_respects
    | update => exact unrulyHooks_respects
    | _ => trivial

/-- A tree of one node. -/
def singleNode : Memory where
  contents := { tables := [("nodes",
    [(.int 1, Samples.Library.nodeRow 1 "root" .null .null)])] }

end ResourceServer
