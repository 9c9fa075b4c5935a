import ResourceServer.Proofs.Batch.Schedule

/-!
# Recorded batches

A recorded part of a batch plays the part itself: it ends in the same way and leaves the same
store, and the notes that it adds unfold the part's own piece of the schedule.  Played parts
compose as the parts do, which carries the single calls to a whole entity, to all entities by
induction, and to the batch.
-/

namespace ResourceServer

variable {σ α β : Type}

/-- The recorded part runs like the part, and its notes unfold a piece of the schedule.  A value
of the part hands on an entity. -/
def Plays (verb : BatchVerb) (targets : List BatchTarget) (steps : List BatchStep)
    (current : Option Entity) (handed : α → Option Entity) (part : Interruptible σ α)
    (recorded : Interruptible (Recorded σ) α) : Prop :=
  ∀ state log, ∃ more,
    recorded.run.perform (state, log) =
        ((part.run.perform state).1, ((part.run.perform state).2, log ++ more)) ∧
      Unfolds verb targets steps current state more
        ((part.run.perform state).1.map (Except.map handed)) (part.run.perform state).2

namespace Plays

variable {verb : BatchVerb} {targets : List BatchTarget} {first second : List BatchStep}
variable {current : Option Entity}

theorem pure (value : α) (handed : α → Option Entity) (same : handed value = current) :
    Plays verb targets [] current handed (Pure.pure value : Interruptible σ α)
      (Pure.pure value) := by
  intro state log
  refine ⟨[], by rw [List.append_nil]; rfl, ?_⟩
  subst same
  exact .finished

/-- A call that is noted is one step of the schedule. -/
theorem noted {step : BatchStep} {handed leaves : α → Option Entity} (part : Interruptible σ α)
    (handsOn : ∀ value, handed value = step.handsOn verb targets current (leaves value)) :
    Plays verb targets [step] current handed part
      (ExceptT.mk (part.run.noted step (step.given targets current) (Except.map leaves))) := by
  intro state log
  refine ⟨[⟨step, step.given targets current, state,
    (part.run.perform state).1.map (Except.map leaves), (part.run.perform state).2⟩], rfl, ?_⟩
  generalize part.run.perform state = ran
  cases ran with
  | mk result after =>
      cases result with
      | error error => exact .failed
      | ok interruptible =>
          cases interruptible with
          | error response => exact .responded
          | ok value =>
              change Unfolds verb targets _ _ _ _ (.ok (.ok (handed value))) after
              rw [handsOn value]
              exact .passed .finished

/-- A call that no hook takes part in can only fail or pass. -/
theorem notedLift {step : BatchStep} {handed leaves : α → Option Entity} (action : Action σ α)
    (handsOn : ∀ value, handed value = step.handsOn verb targets current (leaves value)) :
    Plays verb targets [step] current handed (action : Interruptible σ α)
      ((action.noted step (step.given targets current) fun value => .ok (leaves value) :
        Action (Recorded σ) α) : Interruptible (Recorded σ) α) := by
  intro state log
  rw [Interruptible.perform_lift, Interruptible.perform_lift]
  refine ⟨[⟨step, step.given targets current, state,
    (action.perform state).1.map fun value => .ok (leaves value), (action.perform state).2⟩],
    rfl, ?_⟩
  generalize action.perform state = ran
  cases ran with
  | mk result after =>
      cases result with
      | error error => exact .failed
      | ok value =>
          change Unfolds verb targets _ _ _ _ (.ok (.ok (handed value))) after
          rw [handsOn value]
          exact .passed .finished

theorem bind {handed : α → Option Entity} {handedLast : β → Option Entity}
    {part : Interruptible σ α} {recorded : Interruptible (Recorded σ) α}
    {next : α → Interruptible σ β}
    {recordedNext : α → Interruptible (Recorded σ) β}
    (plays : Plays verb targets first current handed part recorded)
    (playsNext : ∀ value, Plays verb targets second (handed value) handedLast (next value)
      (recordedNext value)) :
    Plays verb targets (first ++ second) current handedLast (part >>= next)
      (recorded >>= recordedNext) := by
  intro state log
  obtain ⟨more, same, unfolds⟩ := plays state log
  rw [Interruptible.perform_bind, Interruptible.perform_bind, same]
  revert unfolds
  cases part.run.perform state with
  | mk result after =>
      cases result with
      | error error =>
          intro unfolds
          exact ⟨more, rfl, unfolds.cut fun _ => nofun⟩
      | ok interruptible =>
          cases interruptible with
          | error response =>
              intro unfolds
              exact ⟨more, rfl, unfolds.cut fun _ => nofun⟩
          | ok value =>
              intro unfolds
              obtain ⟨later, sameLater, unfoldsLater⟩ := playsNext value after (log ++ more)
              refine ⟨more ++ later, ?_, unfolds.append unfoldsLater⟩
              rw [← List.append_assoc]
              exact sameLater

end Plays

/-! ## One entity -/

namespace BatchSteps

variable {verb : BatchVerb} {targets : List BatchTarget}

theorem atEntity_plays (steps : BatchSteps σ) (point : EntityPoint) (context : BatchContext)
    (entity : Entity) {handed : Entity → Option Entity}
    (handsOn : ∀ left, handed left =
      (BatchStep.atEntity point context.entities.length).handsOn verb targets (some entity)
        (some left)) :
    Plays verb targets [.atEntity point context.entities.length] (some entity) handed
      (steps.atEntity point context entity) (steps.recorded.atEntity point context entity) :=
  .noted _ handsOn

theorem atEntityIfSaving_plays (steps : BatchSteps σ) (point : EntityPoint)
    (context : BatchContext) (entity : Entity) (notBefore : point ≠ .beforeAction) :
    Plays verb targets
      (if context.verb.saves then [.atEntity point context.entities.length] else [])
      (some entity) some (steps.atEntityIfSaving point context entity)
      (steps.recorded.atEntityIfSaving point context entity) := by
  unfold atEntityIfSaving
  cases context.verb.saves with
  | false => exact .pure entity some rfl
  | true =>
      refine steps.atEntity_plays point context entity ?_
      intro left
      cases point with
      | beforeAction => exact absurd rfl notBefore
      | _ => rfl

theorem refresh_plays (steps : BatchSteps σ) (context : BatchContext) (entity : Entity)
    (key : Value) :
    Plays verb targets
      (if context.readsBack then [.readBack context.entities.length] else [])
      (some entity) some (steps.refresh context entity key : Interruptible σ Entity)
      (steps.recorded.refresh context entity key : Interruptible (Recorded σ) Entity) := by
  unfold refresh
  cases context.readsBack with
  | false => exact .pure entity some rfl
  | true => exact .notedLift _ fun _ => rfl

/-- A recorded batch notes the calls for one entity in their order. -/
theorem process_plays (steps : BatchSteps σ) (context : BatchContext) {target : BatchTarget}
    (isTarget : targets[context.entities.length]? = some target) (current : Option Entity) :
    Plays context.verb targets (context.entitySchedule context.entities.length) current some
      (steps.process context target) (steps.recorded.process context target) := by
  have authorized : Plays context.verb targets [.authorize context.entities.length] current
      some (steps.authorize context target.entity : Interruptible σ Entity)
      (steps.recorded.authorize context target.entity : Interruptible (Recorded σ) Entity) := by
    have given : some target.entity =
        (BatchStep.authorize context.entities.length).given targets current := by
      simp [BatchStep.given, isTarget]
    change Plays _ _ _ _ _ _ ((Action.noted _ (some target.entity) _ _ :
      Action (Recorded σ) Entity) : Interruptible (Recorded σ) Entity)
    rw [given]
    exact .notedLift _ fun _ => rfl
  have admitted : ∀ entity, Plays context.verb targets
      [.atEntity .beforeAction context.entities.length] (some entity)
      (fun left => some (target.filled context.verb left))
      (steps.atEntity .beforeAction context entity)
      (steps.recorded.atEntity .beforeAction context entity) := by
    intro entity
    refine steps.atEntity_plays .beforeAction context entity ?_
    intro left
    simp [BatchStep.handsOn, isTarget]
  have written : ∀ entity, Plays context.verb targets [.write context.entities.length]
      (some entity) (fun _ => some entity)
      (steps.write context target entity : Interruptible σ Value)
      (steps.recorded.write context target entity : Interruptible (Recorded σ) Value) :=
    fun entity => .notedLift _ fun _ => rfl
  have pieces : context.entitySchedule context.entities.length =
      [.authorize context.entities.length] ++
        ([.atEntity .beforeAction context.entities.length] ++
        ((if context.verb.saves then [.atEntity .beforeSave context.entities.length] else []) ++
        ([.write context.entities.length] ++
        ([.atEntity .beforeFresh context.entities.length] ++
        ((if context.readsBack then [.readBack context.entities.length] else []) ++
        ((if context.verb.saves then [.atEntity .afterSave context.entities.length] else []) ++
        [.atEntity .afterAction context.entities.length])))))) := by
    simp [BatchContext.entitySchedule]
  rw [pieces]
  refine authorized.bind fun authorized => (admitted authorized).bind fun admitted => ?_
  refine (steps.atEntityIfSaving_plays .beforeSave context _ nofun).bind fun complete => ?_
  refine (written complete).bind fun key => ?_
  refine (steps.atEntity_plays .beforeFresh context complete fun _ => rfl).bind fun left => ?_
  refine (steps.refresh_plays context left key).bind fun fresh => ?_
  refine (steps.atEntityIfSaving_plays .afterSave context fresh nofun).bind fun saved => ?_
  exact steps.atEntity_plays .afterAction context saved fun _ => rfl

/-! ## All entities -/

theorem perform_processAll_cons (steps : BatchSteps σ) (context : BatchContext)
    (target : BatchTarget) (rest : List BatchTarget) (state : σ) :
    (steps.processAll context (target :: rest)).perform state =
      match (steps.process context target).run.perform state with
      | (.ok (.ok entity), after) =>
          (steps.processAll (context.withDone entity) rest).perform after
      | (.ok (.error response), after) => (.ok (context, some response), after)
      | (.error error, after) => (.error error, after) := by
  rw [processAll, Action.perform_bind]
  cases (steps.process context target).run.perform state with
  | mk result after =>
      cases result with
      | error error => rfl
      | ok interruptible => cases interruptible <;> rfl

/-- The notes for the targets that are left unfold their part of the schedule, and what is done
then is what was done before and what the notes report. -/
theorem processAll_unfolds (steps : BatchSteps σ) (context : BatchContext)
    (before rest : List BatchTarget) (done : List Entity)
    (aligned : done.length = before.length) (current : Option Entity) (state : σ)
    (log : List (BatchEntry σ)) :
    let ran := (steps.processAll { context with entities := done } rest).perform state
    ∃ more ending,
      (steps.recorded.processAll { context with entities := done } rest).perform (state, log) =
          (ran.1, (ran.2, log ++ more)) ∧
        Unfolds context.verb (before ++ rest)
          (context.entitySchedules before.length rest.length) current state more ending ran.2 ∧
        ran.1 = ending.map fun last =>
          ({ context with entities := done ++ reported more }, responseOf? last) := by
  induction rest generalizing before done current state log with
  | nil =>
      refine ⟨[], .ok (.ok current), ?_, .finished, ?_⟩
      · rw [List.append_nil]
        rfl
      · change _ = Except.ok ({ context with entities := done ++ [] }, none)
        rw [List.append_nil]
        rfl
  | cons target rest induction =>
      intro ran
      have isTarget : (before ++ target :: rest)[done.length]? = some target := by
        simp [aligned]
      obtain ⟨more, same, unfolds⟩ := steps.process_plays { context with entities := done }
        isTarget current state log
      have reports := unfolds.reported_entity
      change Unfolds _ _ (context.entitySchedule done.length) _ _ _ _ _ at unfolds
      rw [aligned] at unfolds
      have goesOn : ran = match (steps.process { context with entities := done }
            target).run.perform state with
          | (.ok (.ok entity), after) =>
              (steps.processAll { context with entities := done ++ [entity] } rest).perform after
          | (.ok (.error response), after) =>
              (.ok ({ context with entities := done }, some response), after)
          | (.error error, after) => (.error error, after) :=
        steps.perform_processAll_cons _ target rest state
      rw [perform_processAll_cons, same]
      rw [goesOn]
      clear goesOn ran same
      generalize (steps.process { context with entities := done } target).run.perform state =
        processed at unfolds reports
      cases processed with
      | mk result after =>
          cases result with
          | error error =>
              exact ⟨more, .error error, rfl, unfolds.cut fun _ => nofun, rfl⟩
          | ok interruptible =>
              cases interruptible with
              | error response =>
                  refine ⟨more, .ok (.error response), rfl, unfolds.cut fun _ => nofun, ?_⟩
                  change _ = Except.ok ({ context with entities := done ++ reported more }, _)
                  rw [reports]
                  change _ = Except.ok ({ context with entities := done ++ [] }, _)
                  rw [List.append_nil]
                  rfl
              | ok entity =>
                  obtain ⟨later, ending, sameLater, unfoldsLater, result⟩ :=
                    induction (before ++ [target]) (done ++ [entity]) (by simp [aligned])
                      (some entity) after (log ++ more)
                  refine ⟨more ++ later, ending, ?_, ?_, ?_⟩
                  · rw [← List.append_assoc]
                    exact sameLater
                  · rw [List.append_assoc, List.length_append] at unfoldsLater
                    exact unfolds.append unfoldsLater
                  · rw [result, reported_append, reports, ← List.append_assoc]
                    rfl

/-! ## The whole batch -/

theorem atBatch_plays (steps : BatchSteps σ) (verb : BatchVerb) (targets : List BatchTarget)
    (point : BatchPoint) (context : BatchContext) (current : Option Entity) :
    Plays verb targets [.atBatch point] current (fun _ => none) (steps.atBatch point context)
      (steps.recorded.atBatch point context) :=
  .noted _ fun _ => rfl

/-- Only the hooks of entities report anything. -/
theorem reported_atBatch {point : BatchPoint} {current : Option Entity} {before after : σ}
    {log : List (BatchEntry σ)} {ending : Ending (Option Entity)}
    (unfolds : Unfolds verb targets [.atBatch point] current before log ending after) :
    reported log = [] := by
  cases unfolds with
  | passed unfolds =>
      cases unfolds with
      | finished => rfl
  | responded => rfl
  | failed => rfl

theorem perform_conclude (steps : BatchSteps σ) (context : BatchContext) (state : σ) :
    (steps.conclude (context, none)).perform state =
      (((steps.atBatch .afterBatch context).run.perform state).1.map fun last =>
          context.outcome (responseOf? last),
        ((steps.atBatch .afterBatch context).run.perform state).2) := by
  rw [conclude, Action.perform_bind]
  cases (steps.atBatch .afterBatch context).run.perform state with
  | mk result after =>
      cases result with
      | error error => rfl
      | ok interruptible => cases interruptible <;> rfl

theorem perform_execute (steps : BatchSteps σ) (context : BatchContext) (plan : BatchPlan)
    (state : σ) :
    (steps.execute context plan).perform state =
      match (steps.atBatch .beforeBatch context).run.perform state with
      | (.ok (.ok ()), middle) =>
          match (steps.targets context plan).perform middle with
          | (.ok targets, middle) =>
              (steps.processAll context targets >>= steps.conclude).perform middle
          | (.error error, after) => (.error error, after)
      | (.ok (.error response), after) => (.ok (context.outcome (some response)), after)
      | (.error error, after) => (.error error, after) := by
  rw [execute, Action.perform_bind]
  cases (steps.atBatch .beforeBatch context).run.perform state with
  | mk result middle =>
      cases result with
      | error error => rfl
      | ok interruptible =>
          cases interruptible with
          | error response => rfl
          | ok opened =>
              dsimp only
              rw [Action.perform_bind]
              cases (steps.targets context plan).perform middle with
              | mk found middle =>
                  cases found with
                  | error error => rfl
                  | ok targets => rfl

/-- A batch ends with the response that its targets have led to, or as the hooks after it end. -/
theorem conclude_unfolds (steps : BatchSteps σ) {context : BatchContext}
    {targets : List BatchTarget} {schedule : List BatchStep} {before middle : σ}
    {earlier : List (BatchEntry σ)} {stop : Ending (Option Entity)}
    (unfolds : Unfolds context.verb targets schedule none before earlier stop middle)
    {reached : BatchContext × Option Value}
    (isReached : .ok reached = stop.map fun last =>
      ({ context with entities := reported earlier }, responseOf? last))
    (log : List (BatchEntry σ)) :
    let ran := (steps.conclude reached).perform middle
    ∃ more ending,
      (steps.recorded.conclude reached).perform (middle, log ++ earlier) =
          (ran.1, (ran.2, log ++ more)) ∧
        Unfolds context.verb targets (schedule ++ [.atBatch .afterBatch]) none before more
            ending ran.2 ∧
          ran.1 = context.outcomeAfter more ending := by
  cases stop with
  | error error => cases isReached
  | ok last =>
      cases isReached
      cases last with
      | error response =>
          exact ⟨earlier, .ok (.error response), rfl, unfolds.cut fun _ => nofun, rfl⟩
      | ok left =>
          obtain ⟨more, same, unfoldsMore⟩ := steps.atBatch_plays context.verb targets
            .afterBatch { context with entities := reported earlier } left middle (log ++ earlier)
          have reports := reported_append earlier more
          rw [reported_atBatch unfoldsMore, List.append_nil] at reports
          have recorded := steps.recorded.perform_conclude
            { context with entities := reported earlier } (middle, log ++ earlier)
          rw [same, List.append_assoc] at recorded
          intro ran
          have isRan : ran = _ :=
            steps.perform_conclude { context with entities := reported earlier } middle
          clear_value ran
          subst isRan
          refine ⟨earlier ++ more, _, recorded, unfolds.append unfoldsMore, ?_⟩
          rw [BatchContext.outcomeAfter, reports]
          cases ((steps.atBatch .afterBatch _).run.perform middle).1 with
          | error error => rfl
          | ok last => cases last <;> rfl

/-- All targets are served after the hooks before the batch have passed, and the batch ends. -/
theorem serve_unfolds (steps : BatchSteps σ) {context : BatchContext}
    (noneDone : context.entities = []) {targets : List BatchTarget} {before middle : σ}
    {earlier : List (BatchEntry σ)}
    (unfolds : Unfolds context.verb targets [.atBatch .beforeBatch] none before earlier
      (.ok (.ok none)) middle)
    (log : List (BatchEntry σ)) :
    let ran := (steps.processAll context targets >>= steps.conclude).perform middle
    ∃ more ending,
      (steps.recorded.processAll context targets >>= steps.recorded.conclude).perform
          (middle, log ++ earlier) = (ran.1, (ran.2, log ++ more)) ∧
        Unfolds context.verb targets (context.schedule targets.length) none before more ending
            ran.2 ∧
          ran.1 = context.outcomeAfter more ending := by
  have isContext : { context with entities := [] } = context := by rw [← noneDone]
  obtain ⟨later, stop, same, unfoldsLater, reachedAs⟩ :=
    steps.processAll_unfolds context [] targets [] rfl none middle (log ++ earlier)
  rw [isContext] at same unfoldsLater reachedAs
  have unfoldsBoth := unfolds.append unfoldsLater
  have reports := reported_append earlier later
  rw [reported_atBatch unfolds] at reports
  rw [← reports] at reachedAs
  rw [Action.perform_bind, Action.perform_bind, same, List.append_assoc]
  cases processed : (steps.processAll context targets).perform middle with
  | mk result after =>
      rw [processed] at reachedAs unfoldsBoth
      cases result with
      | error error =>
          cases stop with
          | ok last => cases reachedAs
          | error error =>
              cases reachedAs
              exact ⟨earlier ++ later, .error error, rfl, unfoldsBoth.cut fun _ => nofun, rfl⟩
      | ok reached => exact steps.conclude_unfolds unfoldsBoth reachedAs log

theorem execute_follows (steps : BatchSteps σ) {context : BatchContext}
    (noneDone : context.entities = []) (plan : BatchPlan)
    (unchanging : ∀ state, ((steps.targets context plan).perform state).2 = state) (state : σ)
    (log : List (BatchEntry σ)) :
    let ran := (steps.execute context plan).perform state
    ∃ more,
      (steps.recorded.execute context plan).perform (state, log) =
          (ran.1, (ran.2, log ++ more)) ∧
        steps.Follows context plan state more ran.1 ran.2 := by
  have opening := fun targets =>
    steps.atBatch_plays context.verb targets .beforeBatch context none state log
  intro ran
  have isRan : ran = _ := steps.perform_execute context plan state
  clear_value ran
  rw [perform_execute]
  unfold Follows openedTargets
  cases opened : (steps.atBatch .beforeBatch context).run.perform state with
  | mk result middle =>
      rw [opened] at isRan opening
      cases result with
      | error error =>
          subst isRan
          obtain ⟨more, same, unfolds⟩ := opening []
          rw [same]
          exact ⟨more, rfl, _, unfolds.cut fun _ => nofun, rfl⟩
      | ok interruptible =>
          cases interruptible with
          | error response =>
              subst isRan
              obtain ⟨more, same, unfolds⟩ := opening []
              rw [same]
              refine ⟨more, rfl, _, unfolds.cut fun _ => nofun, ?_⟩
              rw [BatchContext.outcomeAfter, reported_atBatch unfolds, ← noneDone]
              rfl
          | ok passed =>
              have unmoved := unchanging middle
              cases fetched : (steps.targets context plan).perform middle with
              | mk found unmovedMiddle =>
                  rw [fetched] at unmoved
                  subst unmoved
                  simp only [fetched] at isRan ⊢
                  have recordedFetch : ∀ more, (steps.recorded.targets context plan).perform
                      (unmovedMiddle, log ++ more) = (found, (unmovedMiddle, log ++ more)) := by
                    intro more
                    change Action.perform (Action.onFirst _) _ = _
                    rw [Action.perform_onFirst, fetched]
                  cases found with
                  | error error =>
                      subst isRan
                      obtain ⟨more, same, unfolds⟩ := opening []
                      rw [same]
                      simp only [recordedFetch]
                      exact ⟨more, rfl, unfolds, trivial⟩
                  | ok targets =>
                      obtain ⟨more, same, unfolds⟩ := opening targets
                      rw [same]
                      simp only [recordedFetch]
                      subst isRan
                      obtain ⟨later, ending, sameLater, unfoldsLater⟩ :=
                        steps.serve_unfolds noneDone unfolds log
                      exact ⟨later, sameLater, ending, unfoldsLater⟩

end BatchSteps

end ResourceServer
