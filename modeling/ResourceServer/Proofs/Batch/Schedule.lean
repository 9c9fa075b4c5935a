import ResourceServer.Proofs.Action

/-!
# Schedule of a batch

The calls that a batch makes of its authorizer, its hooks and the store follow a schedule
that is laid down by the verb and the number of targets.  A recorded batch runs like the
batch itself and notes every such call: what it was given, how it ended, and the stores
before and after it.  `Unfolds` says that notes follow a schedule up to the first call that
fails or is ended by a response, and that nothing happens to the entity and to the store in
between.
-/

namespace ResourceServer

/-- A call that a batch makes.  A position is the number of entities that were done before. -/
inductive BatchStep
  | atBatch (point : BatchPoint)
  | authorize (position : Nat)
  | atEntity (point : EntityPoint) (position : Nat)
  | write (position : Nat)
  | readBack (position : Nat)
deriving DecidableEq, Repr

/-- How a call ends: it fails, it ends the batch with a response, or it passes. -/
abbrev Ending (α : Type) := Except Error (Except Value α)

/-- The note of a call.  The entity that it leaves is part of how it ends. -/
structure BatchEntry (σ : Type) where
  step : BatchStep
  given : Option Entity
  before : σ
  ending : Ending (Option Entity)
  after : σ

/-- A store beside the notes of the calls that were made. -/
abbrev Recorded (σ : Type) := σ × List (BatchEntry σ)

variable {σ α β : Type}

/-- Runs an action and notes how it ended. -/
def Action.noted (step : BatchStep) (given : Option Entity)
    (ending : α → Except Value (Option Entity)) (action : Action σ α) :
    Action (Recorded σ) α :=
  fun (state, log) =>
    let (result, after) := action.perform state
    (result, (after, log ++ [⟨step, given, state, result.map ending, after⟩]))

namespace BatchSteps

/-- The same steps, with every call noted. -/
def recorded (steps : BatchSteps σ) : BatchSteps (Recorded σ) where
  atBatch point context :=
    (steps.atBatch point context).run.noted (.atBatch point) none (Except.map fun _ => none)
  targets context plan := (steps.targets context plan).onFirst
  authorize context entity :=
    (steps.authorize context entity).noted (.authorize context.entities.length) (some entity)
      fun left => .ok (some left)
  atEntity point context entity :=
    (steps.atEntity point context entity).run.noted (.atEntity point context.entities.length)
      (some entity) (Except.map some)
  write context target entity :=
    (steps.write context target entity).noted (.write context.entities.length) (some entity)
      fun _ => .ok none
  readBack context entity key :=
    (steps.readBack context entity key).noted (.readBack context.entities.length)
      (some entity) fun left => .ok (some left)

end BatchSteps

namespace BatchContext

/-- The calls for the entity at a position, if all of them pass. -/
def entitySchedule (context : BatchContext) (position : Nat) : List BatchStep :=
  [.authorize position, .atEntity .beforeAction position]
    ++ (if context.verb.saves then [.atEntity .beforeSave position] else [])
    ++ [.write position, .atEntity .beforeFresh position]
    ++ (if context.readsBack then [.readBack position] else [])
    ++ (if context.verb.saves then [.atEntity .afterSave position] else [])
    ++ [.atEntity .afterAction position]

/-- The calls for some number of entities from a position on. -/
def entitySchedules (context : BatchContext) (position : Nat) : (count : Nat) → List BatchStep
  | 0 => []
  | count + 1 =>
      context.entitySchedule position ++ context.entitySchedules (position + 1) count

/-- All calls of a batch with some number of targets, if all of them pass. -/
def schedule (context : BatchContext) (count : Nat) : List BatchStep :=
  .atBatch .beforeBatch :: context.entitySchedules 0 count ++ [.atBatch .afterBatch]

end BatchContext

namespace BatchStep

/-- The entity that a call is given: the authorizer is asked about the entity of the target,
before the payload is applied, and every later call gets what the one before has handed on. -/
def given (targets : List BatchTarget) (current : Option Entity) : BatchStep → Option Entity
  | .atBatch _ => none
  | .authorize position => targets[position]?.map BatchTarget.entity
  | _ => current

/-- The entity that is handed on after a call has passed and left an entity.  The payload is
applied once the hooks before the action have passed; a write leaves the entity as it is. -/
def handsOn (verb : BatchVerb) (targets : List BatchTarget) (current left : Option Entity) :
    BatchStep → Option Entity
  | .atBatch _ => none
  | .atEntity .beforeAction position =>
      left.map fun entity => (targets[position]?).elim entity (·.filled verb entity)
  | .write _ => current
  | _ => left

end BatchStep

/-- The response that ends a batch, if one does. -/
def responseOf? : Except Value α → Option Value
  | .error response => some response
  | .ok _ => none

/-- The entity that is left when all calls have passed, if there is one. -/
def leftAtEnd : Ending (Option Entity) → List Entity
  | .ok (.ok left) => left.toList
  | _ => []

/-- The entity that is done after a call: the one that the last hooks leave when they pass. -/
def BatchEntry.reported? (entry : BatchEntry σ) : Option Entity :=
  match entry.step, entry.ending with
  | .atEntity .afterAction _, .ok (.ok left) => left
  | _, _ => none

/-- The entities that are done by the notes. -/
def reported (log : List (BatchEntry σ)) : List Entity := log.filterMap BatchEntry.reported?

theorem reported_append (log more : List (BatchEntry σ)) :
    reported (log ++ more) = reported log ++ reported more :=
  List.filterMap_append

/-- What a batch produces when its notes end like this. -/
def BatchContext.outcomeAfter (context : BatchContext) (log : List (BatchEntry σ))
    (ending : Ending (Option Entity)) : Except Error BatchOutcome :=
  ending.map fun last => ⟨reported log, responseOf? last, context.requested⟩

/-- Notes follow a schedule up to the first call that fails or responds.  The first index after
the schedule is the entity that is handed on, then come the store before, the notes, how they
end, and the store after. -/
inductive Unfolds (verb : BatchVerb) (targets : List BatchTarget) :
    List BatchStep → Option Entity → σ → List (BatchEntry σ) → Ending (Option Entity) → σ →
      Prop
  | finished {current : Option Entity} {state : σ} :
      Unfolds verb targets [] current state [] (.ok (.ok current)) state
  | passed {step : BatchStep} {rest : List BatchStep} {current left : Option Entity}
      {before after final : σ} {log : List (BatchEntry σ)} {ending : Ending (Option Entity)} :
      Unfolds verb targets rest (step.handsOn verb targets current left) after log ending
        final →
      Unfolds verb targets (step :: rest) current before
        (⟨step, step.given targets current, before, .ok (.ok left), after⟩ :: log) ending final
  | responded {step : BatchStep} {rest : List BatchStep} {current : Option Entity}
      {before after : σ} {response : Value} :
      Unfolds verb targets (step :: rest) current before
        [⟨step, step.given targets current, before, .ok (.error response), after⟩]
        (.ok (.error response)) after
  | failed {step : BatchStep} {rest : List BatchStep} {current : Option Entity}
      {before after : σ} {error : Error} :
      Unfolds verb targets (step :: rest) current before
        [⟨step, step.given targets current, before, .error error, after⟩] (.error error) after

/-- The targets that are found once the hooks before a batch have passed; none if they do not
pass. -/
def BatchSteps.openedTargets (steps : BatchSteps σ) (context : BatchContext) (plan : BatchPlan)
    (state : σ) : Except Error (List BatchTarget) :=
  match (steps.atBatch .beforeBatch context).run.perform state with
  | (.ok (.ok ()), after) => ((steps.targets context plan).perform after).1
  | _ => .ok []

/-- The notes of a batch follow its schedule, and its result is what they say.  When the
targets cannot be found, they end with the hooks before the batch. -/
def BatchSteps.Follows (steps : BatchSteps σ) (context : BatchContext) (plan : BatchPlan)
    (before : σ) (log : List (BatchEntry σ)) (result : Except Error BatchOutcome) (after : σ) :
    Prop :=
  match steps.openedTargets context plan before with
  | .error error =>
      Unfolds context.verb [] [.atBatch .beforeBatch] none before log (.ok (.ok none)) after ∧
        result = .error error
  | .ok targets =>
      ∃ ending,
        Unfolds context.verb targets (context.schedule targets.length) none before log ending
            after ∧
          result = context.outcomeAfter log ending

namespace Unfolds

variable {verb : BatchVerb} {targets : List BatchTarget} {first second : List BatchStep}
variable {current : Option Entity} {before after : σ} {log : List (BatchEntry σ)}
variable {ending : Ending (Option Entity)}

/-- The calls that were made are a prefix of the schedule. -/
theorem steps_prefix (unfolds : Unfolds verb targets first current before log ending after) :
    log.map BatchEntry.step <+: first := by
  induction unfolds with
  | finished => exact List.prefix_refl []
  | passed _ induction => exact List.cons_prefix_cons.mpr ⟨rfl, induction⟩
  | responded => exact List.cons_prefix_cons.mpr ⟨rfl, List.nil_prefix⟩
  | failed => exact List.cons_prefix_cons.mpr ⟨rfl, List.nil_prefix⟩

/-- The notes end as the last call has ended, unless all calls have passed. -/
theorem ending_of_last (unfolds : Unfolds verb targets first current before log ending after)
    (stopped : ∀ left, ending ≠ .ok (.ok left)) :
    ∃ entry, log.getLast? = some entry ∧ entry.ending = ending ∧ entry.after = after := by
  induction unfolds with
  | finished => exact absurd rfl (stopped _)
  | passed unfolds induction =>
      obtain ⟨entry, last, same⟩ := induction stopped
      refine ⟨entry, ?_, same⟩
      rw [List.getLast?_cons, last]
      rfl
  | responded => exact ⟨_, rfl, rfl, rfl⟩
  | failed => exact ⟨_, rfl, rfl, rfl⟩

/-- When all calls have passed, the whole schedule was followed. -/
theorem steps_eq {left : Option Entity}
    (unfolds : Unfolds verb targets first current before log (.ok (.ok left)) after) :
    log.map BatchEntry.step = first := by
  generalize passed : (Except.ok (Except.ok left) : Ending (Option Entity)) = ending at unfolds
  induction unfolds with
  | finished => rfl
  | passed _ induction => exact congrArg _ (induction passed)
  | responded => cases passed
  | failed => cases passed

theorem append {middle : Option Entity} {between : σ} {more : List (BatchEntry σ)}
    (unfolds : Unfolds verb targets first current before log (.ok (.ok middle)) between)
    (goesOn : Unfolds verb targets second middle between more ending after) :
    Unfolds verb targets (first ++ second) current before (log ++ more) ending after := by
  generalize passed : (Except.ok (Except.ok middle) : Ending (Option Entity)) = stop at unfolds
  induction unfolds with
  | finished =>
      cases passed
      exact goesOn
  | passed _ induction => exact .passed (induction goesOn passed)
  | responded => cases passed
  | failed => cases passed

theorem cut (unfolds : Unfolds verb targets first current before log ending after)
    (stopped : ∀ left, ending ≠ .ok (.ok left)) :
    Unfolds verb targets (first ++ second) current before log ending after := by
  induction unfolds with
  | finished => exact absurd rfl (stopped _)
  | passed _ induction => exact .passed (induction stopped)
  | responded => exact .responded
  | failed => exact .failed

/-- Only hooks at the end of an entity report it. -/
theorem reported_eq {front : List BatchStep} {position : Nat}
    (silent : ∀ step ∈ front, ∀ position, step ≠ .atEntity .afterAction position)
    (unfolds : Unfolds verb targets (front ++ [.atEntity .afterAction position]) current before
      log ending after) :
    reported log = leftAtEnd ending := by
  induction front generalizing current before log with
  | nil =>
      cases unfolds with
      | passed unfolds =>
          cases unfolds with
          | finished =>
              rename_i left
              cases left <;> rfl
      | responded => rfl
      | failed => rfl
  | cons step front induction =>
      have unreported : ∀ entry : BatchEntry σ, entry.step = step → entry.reported? = none := by
        intro entry isStep
        unfold BatchEntry.reported?
        rw [isStep]
        split
        · exact absurd rfl (silent _ List.mem_cons_self _)
        · rfl
      cases unfolds with
      | passed unfolds =>
          rw [← induction (fun step member => silent step (by simp [member])) unfolds]
          exact List.filterMap_cons_none (unreported _ rfl)
      | responded => exact List.filterMap_cons_none (unreported _ rfl)
      | failed => exact List.filterMap_cons_none (unreported _ rfl)

theorem reported_entity {context : BatchContext} {position : Nat}
    (unfolds : Unfolds verb targets (context.entitySchedule position) current before log ending
      after) :
    reported log = leftAtEnd ending := by
  refine reported_eq ?_ unfolds
  intro step member other
  cases saves : context.verb.saves <;> cases readsBack : context.readsBack <;>
    simp [saves, readsBack] at member <;> grind

end Unfolds

end ResourceServer
