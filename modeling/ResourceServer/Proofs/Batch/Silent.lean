import ResourceServer.Operations
import ResourceServer.Proofs.Endpoint
import ResourceServer.Proofs.Lists

/-!
# Batches without hooks

Where no hook is called, a batch takes its targets one after another through authorization, the
write and reading back, and nothing ends it early.  Of its request it uses the user only.
-/

namespace ResourceServer

/-- What every item ensures of its result, all results have in their order. -/
theorem Action.Ensures.mapM {σ α β : Type} {relation : σ → σ → Prop} [Std.Refl relation]
    [IsTrans σ relation] {property : α → β → Prop} {step : α → Action σ β} {items : List α}
    (steps : ∀ item ∈ items, (step item).Ensures relation (property item)) :
    (items.mapM step).Ensures relation (List.Forall₂ property items) := by
  induction items with
  | nil =>
      rw [List.mapM_nil]
      exact .pure .nil
  | cons item rest induction =>
      rw [List.forall_mem_cons] at steps
      rw [List.mapM_cons]
      refine .bind steps.1 fun result holds => ?_
      exact .bind (induction steps.2) fun results each => .pure (.cons holds each)

theorem Action.length_of_mapM {σ α β : Type} {step : α → Action σ β} {items : List α}
    {results : List β} {state after : σ}
    (done : (items.mapM step).perform state = (.ok results, after)) :
    items.length = results.length := by
  have each : (items.mapM step).Ensures (fun _ _ => True)
      (List.Forall₂ (fun _ _ => True) items) := by
    refine .mapM fun item _ => ?_
    exact .always (step item)
  exact (each.relatesOk done).2.length_eq

namespace Interruptible

variable {σ α β : Type}

theorem run_lift (action : Action σ α) :
    ExceptT.run (action : Interruptible σ α) = Except.ok <$> action := rfl

theorem run_lift_bind (action : Action σ α) (next : α → Interruptible σ β) :
    ExceptT.run ((action : Interruptible σ α) >>= next) =
      action >>= fun value => (next value).run :=
  ExceptT.run_bind_lift action next

end Interruptible

namespace Endpoint

variable {σ : Type} [Store σ] {endpoint : Endpoint σ} {context : BatchContext}

/-- Takes one target through all steps of a batch without hooks. -/
def serveTarget (endpoint : Endpoint σ) (context : BatchContext) (target : BatchTarget) :
    Action σ Entity := do
  let authorized ←
    endpoint.binding.authorizer.checkEntity context.ability target.entity context.request.user
  let complete := target.filled context.verb authorized
  let key ← endpoint.mutate context target complete
  (endpoint.steps .silent).refresh context complete key

/-- The part of a batch without hooks that runs inside the transaction. -/
def serveAll (endpoint : Endpoint σ) (context : BatchContext) (plan : BatchPlan) :
    Action σ BatchOutcome := do
  let targets ← endpoint.targets context plan
  let entities ← targets.mapM (endpoint.serveTarget context)
  pure ⟨context.entities ++ entities, none, context.requested⟩

theorem atBatch_silent (point : BatchPoint) :
    (endpoint.steps .silent).atBatch point context = pure () := rfl

theorem atEntity_silent (point : EntityPoint) (entity : Entity) :
    (endpoint.steps .silent).atEntity point context entity = pure entity := rfl

theorem atEntityIfSaving_silent (point : EntityPoint) (entity : Entity) :
    (endpoint.steps .silent).atEntityIfSaving point context entity = pure entity := by
  unfold BatchSteps.atEntityIfSaving
  split <;> rfl

theorem process_silent (target : BatchTarget) :
    ((endpoint.steps .silent).process context target).run =
      Except.ok <$> endpoint.serveTarget context target := by
  unfold BatchSteps.process serveTarget
  simp only [atEntity_silent, atEntityIfSaving_silent, pure_bind, bind_pure]
  rw [Interruptible.run_lift_bind, map_bind]
  refine bind_congr fun authorized => ?_
  rw [Interruptible.run_lift_bind, map_bind]
  exact bind_congr fun key => Interruptible.run_lift _

/-- Targets are served one after another, and nothing ends that early. -/
theorem processAll_silent (targets : List BatchTarget) :
    (endpoint.steps .silent).processAll context targets =
      (fun entities => ({ context with entities := context.entities ++ entities }, none)) <$>
        targets.mapM (endpoint.serveTarget context) := by
  induction targets generalizing context with
  | nil => simp [BatchSteps.processAll]
  | cons target rest induction =>
      rw [BatchSteps.processAll, process_silent, List.mapM_cons, bind_map_left, map_bind]
      refine bind_congr fun entity => ?_
      dsimp only
      rw [induction, map_bind, map_eq_pure_bind]
      refine bind_congr fun entities => ?_
      rw [map_pure, BatchContext.withDone, List.append_assoc, List.singleton_append]

theorem execute_silent (plan : BatchPlan) :
    (endpoint.steps .silent).execute context plan = endpoint.serveAll context plan := by
  unfold BatchSteps.execute serveAll
  simp only [atBatch_silent, processAll_silent, ExceptT.run_pure, pure_bind, bind_map_left]
  exact bind_congr fun targets => bind_congr fun entities => rfl

/-- A batch without hooks uses nothing of its request but the user. -/
theorem serveAll_withRequest (endpoint : Endpoint σ) {request : Request}
    (sameUser : request.user = context.request.user) (plan : BatchPlan) :
    endpoint.serveAll { context with request } plan = endpoint.serveAll context plan := by
  have serve : endpoint.serveTarget { context with request } = endpoint.serveTarget context := by
    funext target
    unfold serveTarget
    dsimp only
    rw [sameUser]
    rfl
  unfold serveAll
  rw [serve]
  rfl

theorem run_withRequest (endpoint : Endpoint σ) {request : Request}
    (sameUser : request.user = context.request.user) (plan : BatchPlan) :
    (endpoint.steps .silent).run { context with request } plan =
      (endpoint.steps .silent).run context plan := by
  unfold BatchSteps.run
  rw [execute_silent, execute_silent, endpoint.serveAll_withRequest sameUser]

theorem run_eq_ok {steps : BatchSteps σ} {plan : BatchPlan} {state after : σ}
    {outcome : BatchOutcome} (done : (steps.run context plan).perform state = (.ok outcome, after)) :
    ∃ opened inside, (Store.begin : Action σ Unit).perform state = (.ok (), opened) ∧
      (steps.execute context plan).perform opened = (.ok outcome, inside) := by
  obtain ⟨_, opened, begun, done⟩ := Action.perform_bind_eq_ok.mp done
  obtain ⟨result, inside, executed, done⟩ := Action.perform_bind_eq_ok.mp done
  rw [Action.perform_attempt, Prod.mk.injEq, Except.ok.injEq] at executed
  refine ⟨opened, inside, begun, ?_⟩
  cases result with
  | error error =>
      obtain ⟨_, _, _, done⟩ := Action.perform_bind_eq_ok.mp done
      cases done
  | ok reached =>
      obtain ⟨_, _, _, done⟩ := Action.perform_bind_eq_ok.mp done
      cases done
      exact Prod.ext executed.1 executed.2

/-- Every outcome of a batch is one of the part that runs inside the transaction. -/
theorem run_ensures {steps : BatchSteps σ} {plan : BatchPlan} {property : BatchOutcome → Prop}
    (executes : (steps.execute context plan).Ensures (fun _ _ => True) property) :
    (steps.run context plan).Ensures (fun _ _ => True) property := by
  refine .bind (.always _) fun _ _ => ?_
  refine .bind executes.attempt fun result holds => ?_
  cases result with
  | ok outcome => exact .bind (.always _) fun _ _ => .pure (holds outcome rfl)
  | error error => exact .bind (.always _) fun _ _ => .throw error

/-- A batch without hooks that succeeds has served every target. -/
theorem serveAll_ensures {plan : BatchPlan} {aimed : List BatchTarget → Prop}
    {served : BatchTarget → Entity → Prop}
    (aims : (endpoint.targets context plan).Ensures (fun _ _ => True) aimed)
    (serves : ∀ target, (endpoint.serveTarget context target).Ensures (fun _ _ => True)
      (served target)) (noneDone : context.entities = []) :
    (endpoint.serveAll context plan).Ensures (fun _ _ => True) fun outcome =>
      outcome.response = none ∧ outcome.requested = context.requested ∧
        ∃ targets, aimed targets ∧ List.Forall₂ served targets outcome.entities := by
  refine .bind aims fun targets aimed => ?_
  refine .bind (.mapM fun target _ => serves target) fun entities each => ?_
  rw [noneDone, List.nil_append]
  exact .pure ⟨rfl, rfl, targets, aimed, each⟩

/-- What every outcome is like when all targets of a batch without hooks are served. -/
theorem runBatch_ensures {verb : BatchVerb} {request : Request} {input : BatchInput}
    {property : BatchOutcome → Prop} (silent : endpoint.binding.hooksFor verb = .silent)
    (serves : ∀ context plan, endpoint.prepareBatch verb request input = .ok (context, plan) →
      (endpoint.serveAll context plan).Ensures (fun _ _ => True) property) :
    (endpoint.runBatch verb request input).Ensures (fun _ _ => True) property := by
  unfold runBatch
  refine .bind (.compute _) fun both prepared => ?_
  obtain ⟨context, plan⟩ := both
  rw [silent]
  refine run_ensures ?_
  rw [execute_silent]
  exact serves context plan prepared

end Endpoint

end ResourceServer
