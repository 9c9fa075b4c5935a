import ResourceServer.Proofs.Viewing

/-!
# Batches that nothing interferes with

Where no hook is called and every ability is granted, a batch is a run of writes: each target is
written and read back, and nothing of the store changes but its contents.  An outcome keeps them,
and a failure leaves the store as it was.
-/

namespace ResourceServer

/-! ## Reading depends on the contents -/

/-- Two states in which the store has the same contents, whatever transaction is open. -/
def SameContents {τ : Type} (left right : Memory × τ) : Prop :=
  left.1.contents = right.1.contents ∧ left.2 = right.2

/-- What an action reads is the same wherever the store has the same contents. -/
theorem Action.Yields.of_sameContents {τ α : Type} {action : Action (Memory × τ) α}
    {memory other : Memory} {side : τ} {result : α}
    (parallel : Parallel SameContents (· = ·) action action)
    (quiet : action.Ensures (· = ·) fun _ => True)
    (sameContents : memory.contents = other.contents)
    (done : action.Yields (memory, side) result) : action.Yields (other, side) result := by
  have corresponds := (parallel (memory, side) (other, side) ⟨sameContents, rfl⟩).1
  have unchanged := (quiet (other, side)).1
  rw [Yields] at done ⊢
  rw [done] at corresponds
  revert corresponds unchanged
  generalize action.perform (other, side) = run
  obtain ⟨otherResult, after⟩ := run
  intro corresponds unchanged
  cases corresponds with
  | ok same => rw [same, unchanged]

namespace Store

variable {τ : Type} {registry : Registry}

theorem fetchRows_sameContents (registry : Registry) (spec : QuerySpec)
    (offset limit : Option Int) :
    Action.Parallel (SameContents (τ := τ)) (· = ·) (fetchRows registry spec offset limit)
      (fetchRows registry spec offset limit) := by
  rintro ⟨left, leftSide⟩ ⟨right, rightSide⟩ same
  rw [Memory.perform_fetchRows, Memory.perform_fetchRows]
  refine ⟨?_, same⟩
  dsimp only
  rw [same.1]
  exact .same (fun _ => rfl) _

theorem loadRelation_sameContents {getRelated : QuerySpec → Action (Memory × τ) (List Entity)}
    (parallel : ∀ spec, Action.Parallel SameContents (· = ·) (getRelated spec) (getRelated spec))
    (registry : Registry) (owner : Resource) (entities : List Entity) (step : RelationStep) :
    Action.Parallel SameContents (· = ·) (loadRelation getRelated registry owner entities step)
      (loadRelation getRelated registry owner entities step) := by
  refine .compute _ fun relation _ => ?_
  refine .compute _ fun target _ => ?_
  dsimp only
  split
  · exact .pure rfl
  · refine .compute _ fun spec _ => .bind (parallel spec) ?_
    rintro related _ rfl
    exact .pure rfl

theorem hydrateTo_sameContents (registry : Registry) (depth : Nat) (spec : QuerySpec)
    (rows : List Record) :
    Action.Parallel (SameContents (τ := τ)) (· = ·) (hydrateTo registry depth spec rows)
      (hydrateTo registry depth spec rows) := by
  induction depth generalizing spec rows with
  | zero => exact .ofExcept (.same (fun _ => rfl) _)
  | succ depth induction =>
      rw [hydrateTo]
      refine .compute _ fun entities _ => ?_
      split
      · exact .pure rfl
      · refine .foldlM (fun step _ left right same => ?_) rfl
        subst same
        refine loadRelation_sameContents (fun query => ?_) registry spec.resource left step
        refine .bind (fetchRows_sameContents registry query none none) ?_
        rintro related _ rfl
        exact induction query related

theorem first_sameContents (registry : Registry) (spec : QuerySpec) :
    Action.Parallel (SameContents (τ := τ)) (· = ·) (first registry spec)
      (first registry spec) := by
  refine .bind (fetchRows_sameContents registry spec none (some 1)) ?_
  rintro rows _ rfl
  refine .bind (hydrateTo_sameContents registry _ spec rows) ?_
  rintro entities _ rfl
  exact .pure rfl

theorem first_ensures (registry : Registry) (spec : QuerySpec) :
    (first registry spec : Action (Memory × τ) _).Ensures (· = ·) fun _ => True := by
  refine .bind (Memory.fetchRows_ensures _ _ _ _) fun rows _ => ?_
  exact .bind (hydrate_ensures _ _ rows) fun _ _ => .pure trivial

end Store

/-! ## Only the contents change -/

namespace Memory

variable {τ : Type}

/-- Nothing of the state changes but the contents of the store. -/
def ChangesContents (before after : Memory × τ) : Prop :=
  after = ({ before.1 with contents := after.1.contents }, before.2)

instance : Std.Refl (@ChangesContents τ) := ⟨fun _ => rfl⟩

instance : IsTrans (Memory × τ) ChangesContents where
  trans before middle after first second := by
    unfold ChangesContents at first second ⊢
    rw [second, first]

theorem ChangesContents.keepsTransaction {before after : Memory × τ}
    (changes : ChangesContents before after) : KeepsTransaction before after := by
  intro _
  rw [changes]
  exact ⟨rfl, rfl⟩

theorem write_changesContents {α : Type} (change : Contents → Except Error (α × Contents)) :
    ((write change).onFirst : Action (Memory × τ) α).Ensures ChangesContents fun _ => True :=
  write_ensures change fun _ _ _ _ _ => rfl

end Memory

namespace Endpoint

variable {τ : Type} {endpoint : Endpoint (Memory × τ)} {verb : BatchVerb} {request : Request}
variable {input : BatchInput} {context : BatchContext} {plan : BatchPlan} {memory : Memory}
variable {side : τ}

theorem checkEntity_granted {σ : Type} {authorizer : Authorizer σ} (grants : authorizer.GrantsAll)
    (ability : Ability) (entity : Entity) (user : Value) (state : σ) :
    (authorizer.checkEntity ability entity user).Yields state entity :=
  (grants _ _ _ _).bind rfl

/-- What is done for a target when it is granted: it is written, and read back. -/
theorem perform_serveTarget (grants : endpoint.binding.authorizer.GrantsAll)
    (context : BatchContext) (target : BatchTarget) (state : Memory × τ) :
    (endpoint.serveTarget context target).perform state =
      Action.perform (do
        let complete := target.filled context.verb target.entity
        let key ← endpoint.mutate context target complete
        (endpoint.steps .silent).refresh context complete key) state :=
  Action.perform_bind_ok (checkEntity_granted grants _ _ _ _) _

theorem serveTarget_changesContents (grants : endpoint.binding.authorizer.GrantsAll)
    (context : BatchContext) (target : BatchTarget) :
    (endpoint.serveTarget context target).Ensures Memory.ChangesContents fun _ => True := by
  intro state
  rw [perform_serveTarget grants]
  revert state
  refine Action.Ensures.bind (endpoint.mutate_ensures _ _ _ ?_ ?_ ?_) fun key _ => ?_
  · exact fun _ values => Memory.write_changesContents _
  · exact fun _ changes => Memory.write_changesContents _
  · exact fun _ => Memory.write_changesContents _
  · unfold BatchSteps.refresh
    split
    · refine (endpoint.refetch_ensures context key).relax ?_
      rintro before after rfl
      exact Std.Refl.refl before
    · exact .pure trivial

theorem serveAll_changesContents (grants : endpoint.binding.authorizer.GrantsAll)
    (context : BatchContext) (plan : BatchPlan) :
    (endpoint.serveAll context plan).Ensures Memory.ChangesContents fun _ => True := by
  have aims : (endpoint.targets context plan).Ensures Memory.ChangesContents fun _ => True := by
    refine (endpoint.targets_ensures context plan).relax ?_
    rintro before after rfl
    exact Std.Refl.refl before
  refine .bind aims fun targets _ => ?_
  refine .bind (.mapM fun target _ => serveTarget_changesContents grants context target) ?_
  exact fun entities _ => .pure trivial

/-- A batch that nothing interferes with: what it writes is kept with an outcome, and a failure
leaves the store as it was. -/
theorem perform_runBatch (silent : endpoint.binding.hooksFor verb = .silent)
    (grants : endpoint.binding.authorizer.GrantsAll) (noneOpen : memory.snapshot = none)
    (prepared : endpoint.prepareBatch verb request input = .ok (context, plan)) :
    (endpoint.runBatch verb request input).perform (memory, side) =
      match (endpoint.serveAll context plan).perform (memory.opened, side) with
      | (.error error, _) => (.error error, (memory, side))
      | (.ok outcome, after) =>
          (.ok outcome, ({ memory with contents := after.1.contents }, side)) := by
  have serves := serveAll_changesContents grants context plan
  have executes : ((endpoint.steps .silent).execute context plan).Ensures
      Memory.KeepsTransaction fun _ => True := by
    rw [execute_silent]
    exact serves.relax fun _ _ => Memory.ChangesContents.keepsTransaction
  rw [(runBatch_prepared prepared).1, silent, BatchSteps.perform_run_memory executes noneOpen,
    execute_silent]
  have changes := (serves (memory.opened, side)).1
  revert changes
  generalize (endpoint.serveAll context plan).perform (memory.opened, side) = served
  obtain ⟨result, after⟩ := served
  intro changes
  rw [Memory.ChangesContents] at changes
  cases result with
  | error error =>
      dsimp only at changes ⊢
      rw [changes]
  | ok outcome =>
      dsimp only at changes ⊢
      rw [changes]
      cases memory
      cases noneOpen
      rfl

/-- What a batch has done when it comes to an outcome: its targets were found, and each of them was
served. -/
theorem runBatch_eq_ok (silent : endpoint.binding.hooksFor verb = .silent)
    (grants : endpoint.binding.authorizer.GrantsAll) {outcome : BatchOutcome}
    {after : Memory × τ} :
    (endpoint.runBatch verb request input).perform (memory, side) = (.ok outcome, after) ↔
      ∃ context plan targets entities contents,
        endpoint.prepareBatch verb request input = .ok (context, plan) ∧
        memory.snapshot = none ∧
        (endpoint.targets context plan).Yields (memory.opened, side) targets ∧
        (targets.mapM (endpoint.serveTarget context)).perform (memory.opened, side) =
          (.ok entities, ({ memory.opened with contents }, side)) ∧
        outcome = ⟨entities, none, context.requested⟩ ∧
        after = ({ memory with contents }, side) := by
  constructor
  · intro done
    obtain ⟨⟨context, plan⟩, prepared, ran⟩ := Action.perform_compute_eq_ok.mp done
    have noneDone : context.entities = [] := by
      obtain ⟨_, _, _, _, _, _, rfl⟩ := prepareBatch_eq_ok prepared
      rfl
    cases isOpen : memory.snapshot with
    | some snapshot =>
        obtain ⟨opened, inside, begun, _⟩ := run_eq_ok ran
        rw [Memory.perform_begin_again isOpen] at begun
        cases begun
    | none =>
        rw [perform_runBatch silent grants isOpen prepared] at done
        cases served : (endpoint.serveAll context plan).perform (memory.opened, side) with
        | mk result inside =>
            rw [served] at done
            cases result with
            | error error => cases done
            | ok reached =>
                cases done
                obtain ⟨targets, middle, aimed, goesOn⟩ := Action.perform_bind_eq_ok.mp served
                obtain ⟨entities, last, each, goesOn⟩ := Action.perform_bind_eq_ok.mp goesOn
                cases goesOn
                obtain ⟨rfl, _⟩ := (endpoint.targets_ensures context plan).relatesOk aimed
                have changes := (Action.Ensures.mapM fun target _ =>
                  serveTarget_changesContents grants context target).relatesOk each
                rw [Memory.ChangesContents] at changes
                refine ⟨context, plan, targets, entities, inside.1.contents, prepared, rfl,
                  aimed, ?_, ?_, ?_⟩
                · rw [each, ← changes.1]
                · rw [noneDone, List.nil_append]
                · rw [isOpen]
  · rintro ⟨context, plan, targets, entities, contents, prepared, noneOpen, aimed, each, rfl, rfl⟩
    have noneDone : context.entities = [] := by
      obtain ⟨_, _, _, _, _, _, rfl⟩ := prepareBatch_eq_ok prepared
      rfl
    have served : (endpoint.serveAll context plan).perform (memory.opened, side) =
        (.ok ⟨entities, none, context.requested⟩, ({ memory.opened with contents }, side)) := by
      refine Action.perform_bind_eq_ok.mpr ⟨targets, _, aimed, ?_⟩
      refine Action.perform_bind_eq_ok.mpr ⟨entities, _, each, ?_⟩
      rw [noneDone]
      rfl
    rw [perform_runBatch silent grants noneOpen prepared, served]

/-- A batch that fails leaves the store as it was. -/
theorem runBatch_eq_error (silent : endpoint.binding.hooksFor verb = .silent)
    (grants : endpoint.binding.authorizer.GrantsAll) {error : Error} {after : Memory × τ}
    (failed : (endpoint.runBatch verb request input).perform (memory, side) =
      (.error error, after)) : after = (memory, side) := by
  cases prepared : endpoint.prepareBatch verb request input with
  | error cause =>
      rw [(runBatch_unprepared prepared).1] at failed
      cases failed
      rfl
  | ok both =>
      obtain ⟨context, plan⟩ := both
      cases isOpen : memory.snapshot with
      | some snapshot =>
          rw [(runBatch_prepared prepared).1, BatchSteps.perform_run,
            Memory.perform_begin_again isOpen] at failed
          cases failed
          rfl
      | none =>
          rw [perform_runBatch silent grants isOpen prepared] at failed
          revert failed
          generalize (endpoint.serveAll context plan).perform (memory.opened, side) = served
          obtain ⟨result, inside⟩ := served
          intro failed
          cases result with
          | error cause =>
              cases failed
              rfl
          | ok outcome => cases failed

end Endpoint

end ResourceServer
