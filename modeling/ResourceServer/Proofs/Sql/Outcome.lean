import Mathlib.Data.List.Forall2
import ResourceServer.Proofs.Action
import ResourceServer.Sql.Connection

/-!
# What conditions select

A query selects the rows for which its condition is yes, so of the three outcomes only this one
matters: a conjunction is yes when every member is, a disjunction when some member is, and what
the building of conditions leaves out or flattens changes neither.  The parameters of a condition
are prepared first and sent afterwards; both can be done parameter by parameter.
-/

namespace ResourceServer.Sql

namespace Truth

theorem both_eq_yes {first second : Truth} :
    first.both second = .yes ↔ first = .yes ∧ second = .yes := by
  cases first <;> cases second <;> simp [both]

theorem either_eq_yes {first second : Truth} :
    first.either second = .yes ↔ first = .yes ∨ second = .yes := by
  cases first <;> cases second <;> simp [either]

theorem ofBool_eq_yes {holds : Bool} : ofBool holds = .yes ↔ holds = true := by
  cases holds <;> simp [ofBool]

theorem selects_eq_true {truth : Truth} : truth.selects = true ↔ truth = .yes := by
  cases truth <;> simp [selects]

end Truth

/-! ## Sending -/

section Steps

variable {π ρ τ ε : Type}

/-- A step that can be done in two: whatever it yields, the two yield one after the other. -/
def Divides (whole : π → Except ε τ) (first : π → Except ε ρ) (second : ρ → Except ε τ) : Prop :=
  ∀ parameter last, whole parameter = .ok last →
    ∃ middle, first parameter = .ok middle ∧ second middle = .ok last

theorem divides_bind (first : π → Except ε ρ) (second : ρ → Except ε τ) :
    Divides (fun parameter => first parameter >>= second) first second := by
  intro parameter last done
  cases begun : first parameter with
  | error error => simp [begun, bind, Except.bind] at done
  | ok middle => exact ⟨middle, rfl, by simpa [begun, bind, Except.bind] using done⟩

theorem map_eq_ok {α β : Type} {result : Except ε α} {change : α → β} {value : β} :
    result.map change = .ok value ↔ ∃ before, result = .ok before ∧ change before = value := by
  cases result <;> simp [Except.map]

variable {whole : π → Except ε τ} {first : π → Except ε ρ} {second : ρ → Except ε τ}

theorem Divides.option (divides : Divides whole first second) :
    Divides
      (fun parameter : Option π =>
        match parameter with
        | some given => (whole given).map some
        | none => .ok none)
      (fun parameter : Option π =>
        match parameter with
        | some given => (first given).map some
        | none => .ok none)
      (fun parameter : Option ρ =>
        match parameter with
        | some given => (second given).map some
        | none => .ok none) := by
  intro parameter last done
  cases parameter with
  | none => exact ⟨none, rfl, done⟩
  | some given =>
      obtain ⟨last, changed, rfl⟩ := map_eq_ok.mp done
      obtain ⟨middle, begun, ended⟩ := divides given last changed
      exact ⟨some middle, map_eq_ok.mpr ⟨middle, begun, rfl⟩, map_eq_ok.mpr ⟨last, ended, rfl⟩⟩

theorem Divides.mapM (divides : Divides whole first second) :
    Divides (List.mapM whole) (List.mapM first) (List.mapM second) := by
  intro items
  induction items with
  | nil =>
      intro lasts done
      exact ⟨[], by simp [pure, Except.pure], by simpa using done⟩
  | cons item items induction =>
      intro lasts done
      rw [List.mapM_cons] at done
      cases one : whole item with
      | error error => simp [one, bind, Except.bind] at done
      | ok last =>
          cases rest : items.mapM whole with
          | error error => simp [one, rest, bind, Except.bind] at done
          | ok others =>
              have lasts : last :: others = lasts := by
                simpa [one, rest, bind, Except.bind, pure, Except.pure] using done
              subst lasts
              obtain ⟨middle, begun, ended⟩ := divides item last one
              obtain ⟨middles, begunRest, endedRest⟩ := induction others rest
              refine ⟨middle :: middles, ?_, ?_⟩
              · rw [List.mapM_cons, begun, begunRest]
                rfl
              · rw [List.mapM_cons, ended, endedRest]
                rfl

theorem Test.divides_mapParameters (divides : Divides whole first second) :
    Divides (mapParameters whole) (mapParameters first) (mapParameters second) := by
  intro test last done
  cases test with
  | compare column comparator parameter =>
      obtain ⟨parameter, changed, rfl⟩ := map_eq_ok.mp done
      obtain ⟨middle, begun, ended⟩ := divides _ _ changed
      exact ⟨.compare column comparator middle, map_eq_ok.mpr ⟨middle, begun, rfl⟩,
        map_eq_ok.mpr ⟨parameter, ended, rfl⟩⟩
  | flag column equal flag => exact ⟨.flag column equal flag, rfl, done⟩
  | empty column isEmpty => exact ⟨.empty column isEmpty, rfl, done⟩
  | among column isIn parameters =>
      obtain ⟨lasts, changed, rfl⟩ := map_eq_ok.mp done
      obtain ⟨middles, begun, ended⟩ := divides.option.mapM _ _ changed
      exact ⟨.among column isIn middles, map_eq_ok.mpr ⟨middles, begun, rfl⟩,
        map_eq_ok.mpr ⟨lasts, ended, rfl⟩⟩
  | like column pattern =>
      obtain ⟨pattern, changed, rfl⟩ := map_eq_ok.mp done
      obtain ⟨middle, begun, ended⟩ := divides _ _ changed
      exact ⟨.like column middle, map_eq_ok.mpr ⟨middle, begun, rfl⟩,
        map_eq_ok.mpr ⟨pattern, ended, rfl⟩⟩
  | likeLowered column pattern =>
      obtain ⟨pattern, changed, rfl⟩ := map_eq_ok.mp done
      obtain ⟨middle, begun, ended⟩ := divides _ _ changed
      exact ⟨.likeLowered column middle, map_eq_ok.mpr ⟨middle, begun, rfl⟩,
        map_eq_ok.mpr ⟨pattern, ended, rfl⟩⟩

namespace Condition

theorem mapParametersOf_cons_eq_ok {step : π → Except ε ρ} {condition : Condition π}
    {conditions : List (Condition π)} {results : List (Condition ρ)} :
    mapParametersOf step (condition :: conditions) = .ok results ↔
      ∃ result others, mapParameters step condition = .ok result ∧
        mapParametersOf step conditions = .ok others ∧ results = result :: others := by
  rw [mapParametersOf]
  cases mapParameters step condition <;> cases mapParametersOf step conditions <;>
    simp [bind, Except.bind, eq_comm]

mutual

theorem divides_mapParameters (divides : Divides whole first second) :
    Divides (mapParameters whole) (mapParameters first) (mapParameters second) := by
  intro condition last done
  cases condition with
  | constant holds => exact ⟨.constant holds, rfl, done⟩
  | test test =>
      obtain ⟨last, changed, rfl⟩ := map_eq_ok.mp done
      obtain ⟨middle, begun, ended⟩ := Test.divides_mapParameters divides test last changed
      exact ⟨.test middle, map_eq_ok.mpr ⟨middle, begun, rfl⟩, map_eq_ok.mpr ⟨last, ended, rfl⟩⟩
  | all conditions =>
      obtain ⟨lasts, changed, rfl⟩ := map_eq_ok.mp done
      obtain ⟨middles, begun, ended⟩ := divides_mapParametersOf divides conditions lasts changed
      exact ⟨.all middles, map_eq_ok.mpr ⟨middles, begun, rfl⟩, map_eq_ok.mpr ⟨lasts, ended, rfl⟩⟩
  | any conditions =>
      obtain ⟨lasts, changed, rfl⟩ := map_eq_ok.mp done
      obtain ⟨middles, begun, ended⟩ := divides_mapParametersOf divides conditions lasts changed
      exact ⟨.any middles, map_eq_ok.mpr ⟨middles, begun, rfl⟩, map_eq_ok.mpr ⟨lasts, ended, rfl⟩⟩

theorem divides_mapParametersOf (divides : Divides whole first second) :
    Divides (mapParametersOf whole) (mapParametersOf first) (mapParametersOf second) := by
  intro conditions lasts done
  cases conditions with
  | nil =>
      rw [mapParametersOf] at done
      exact ⟨[], rfl, done⟩
  | cons condition conditions =>
      obtain ⟨last, others, one, rest, rfl⟩ := mapParametersOf_cons_eq_ok.mp done
      obtain ⟨middle, begun, ended⟩ := divides_mapParameters divides condition last one
      obtain ⟨middles, begunRest, endedRest⟩ :=
        divides_mapParametersOf divides conditions others rest
      exact ⟨middle :: middles, mapParametersOf_cons_eq_ok.mpr ⟨_, _, begun, begunRest, rfl⟩,
        mapParametersOf_cons_eq_ok.mpr ⟨_, _, ended, endedRest, rfl⟩⟩

end

end Condition

end Steps

/-! ## Deciding -/

/-- The cell that an operand is sent as. -/
def Operand.toCell (operand : Operand) : Except Error Cell := operand.prepare >>= Cell.ofValue

namespace Condition

variable {row : Row}

/-- A condition that can be sent, has no pattern that is too long, and selects a row exactly when
something is true. -/
def Decides (row : Row) (condition : Condition Operand) (holds : Bool) : Prop :=
  ∃ cells, mapParameters Operand.toCell condition = .ok cells ∧
    (tests cells).any hasLongPattern = false ∧ (outcome row cells = .yes ↔ holds = true)

theorem Decides.unique {condition : Condition Operand} {first second : Bool}
    (decidesFirst : Decides row condition first) (decidesSecond : Decides row condition second) :
    first = second := by
  obtain ⟨cells, sent, _, outcome⟩ := decidesFirst
  obtain ⟨others, sentAgain, _, outcomeAgain⟩ := decidesSecond
  rw [sent, Except.ok.injEq] at sentAgain
  subst sentAgain
  rw [Bool.eq_iff_iff, ← outcome, ← outcomeAgain]

theorem decides_constant (holds : Bool) : Decides row (.constant holds) holds := by
  refine ⟨.constant holds, rfl, rfl, ?_⟩
  rw [outcome, Truth.ofBool_eq_yes]

theorem decides_test {test : Test Operand} {cells : Test Cell} {holds : Bool}
    (sent : test.mapParameters Operand.toCell = .ok cells) (short : hasLongPattern cells = false)
    (decided : cells.outcome row = .yes ↔ holds = true) : Decides row (.test test) holds := by
  refine ⟨.test cells, map_eq_ok.mpr ⟨cells, sent, rfl⟩, ?_, ?_⟩
  · simp [tests, short]
  · rw [outcome]
    exact decided

/-- Several conditions that each can be sent together. -/
theorem decides_several {conditions : List (Condition Operand)} {truths : List Bool}
    (each : List.Forall₂ (Decides row) conditions truths) :
    ∃ cells, mapParametersOf Operand.toCell conditions = .ok cells ∧
      (testsOf cells).any hasLongPattern = false ∧
      (outcomeOfAll row cells = .yes ↔ truths.all id = true) ∧
      (outcomeOfAny row cells = .yes ↔ truths.any id = true) := by
  induction each with
  | nil => exact ⟨[], rfl, rfl, by simp [outcomeOfAll], by simp [outcomeOfAny]⟩
  | cons decides others induction =>
      obtain ⟨cell, sent, short, first⟩ := decides
      obtain ⟨cells, sentOthers, shortOthers, all, any⟩ := induction
      refine ⟨cell :: cells, mapParametersOf_cons_eq_ok.mpr ⟨_, _, sent, sentOthers, rfl⟩,
        ?_, ?_, ?_⟩
      · rw [testsOf, List.any_append, short, shortOthers]
        rfl
      · rw [outcomeOfAll, Truth.both_eq_yes, first, all, List.all_cons, Bool.and_eq_true]
        rfl
      · rw [outcomeOfAny, Truth.either_eq_yes, first, any, List.any_cons, Bool.or_eq_true]
        rfl

theorem decides_all {conditions : List (Condition Operand)} {truths : List Bool}
    (each : List.Forall₂ (Decides row) conditions truths) :
    Decides row (.all conditions) (truths.all id) := by
  obtain ⟨cells, sent, short, all, _⟩ := decides_several each
  exact ⟨.all cells, map_eq_ok.mpr ⟨cells, sent, rfl⟩, by rw [tests, short], by rw [outcome, all]⟩

theorem decides_any {conditions : List (Condition Operand)} {truths : List Bool}
    (each : List.Forall₂ (Decides row) conditions truths) :
    Decides row (.any conditions) (truths.any id) := by
  obtain ⟨cells, sent, short, _, any⟩ := decides_several each
  exact ⟨.any cells, map_eq_ok.mpr ⟨cells, sent, rfl⟩, by rw [tests, short], by rw [outcome, any]⟩

theorem decides_members {conditions : List (Condition Operand)} {cells : List (Condition Cell)}
    (sent : mapParametersOf Operand.toCell conditions = .ok cells)
    (short : (testsOf cells).any hasLongPattern = false) :
    ∃ truths, List.Forall₂ (Decides row) conditions truths := by
  induction conditions generalizing cells with
  | nil => exact ⟨[], List.Forall₂.nil⟩
  | cons condition conditions induction =>
      obtain ⟨cell, others, sentFirst, sentOthers, rfl⟩ := mapParametersOf_cons_eq_ok.mp sent
      rw [testsOf, List.any_append, Bool.or_eq_false_iff] at short
      obtain ⟨truths, each⟩ := induction sentOthers short.2
      refine ⟨decide (outcome row cell = .yes) :: truths, List.Forall₂.cons ?_ each⟩
      exact ⟨cell, sentFirst, short.1, by simp⟩

/-! ## Building -/

/-- What restricts nothing is yes on every row. -/
theorem Decides.of_isVacuous {condition : Condition Operand} {holds : Bool}
    (decides : Decides row condition holds) (vacuous : condition.isVacuous = true) :
    holds = true := by
  unfold isVacuous at vacuous
  split at vacuous
  · exact decides.unique (decides_all List.Forall₂.nil)
  · cases vacuous

theorem Decides.of_isNever {condition : Condition Operand} {holds : Bool}
    (decides : Decides row condition holds) (never : condition.isNever = true) :
    holds = false := by
  unfold isNever at never
  split at never
  · exact decides.unique (decides_constant false)
  · cases never

theorem decides_restricting {conditions : List (Condition Operand)} {truths : List Bool}
    (each : List.Forall₂ (Decides row) conditions truths) :
    ∃ kept, List.Forall₂ (Decides row)
        (conditions.filter fun condition => !condition.isVacuous) kept ∧
      kept.all id = truths.all id := by
  induction each with
  | nil => exact ⟨[], List.Forall₂.nil, rfl⟩
  | @cons condition holds conditions truths decides others induction =>
      obtain ⟨kept, decideKept, same⟩ := induction
      cases vacuous : condition.isVacuous with
      | true =>
          refine ⟨kept, by simpa [vacuous] using decideKept, ?_⟩
          simp [same, decides.of_isVacuous vacuous]
      | false =>
          refine ⟨holds :: kept, by simpa [vacuous] using ⟨decides, decideKept⟩, ?_⟩
          simp [same]

theorem decides_conjunction {conditions : List (Condition Operand)} {truths : List Bool}
    (each : List.Forall₂ (Decides row) conditions truths) :
    Decides row (conjunction conditions) (truths.all id) := by
  obtain ⟨kept, decideKept, same⟩ := decides_restricting each
  rw [← same]
  unfold conjunction
  split
  · rename_i none
    rw [none, List.forall₂_nil_left_iff] at decideKept
    subst decideKept
    split
    · exact decides_all List.Forall₂.nil
    · exact decides_constant true
  · rename_i condition one
    rw [one] at decideKept
    cases decideKept with
    | cons decides rest =>
        cases rest
        simpa using decides
  · exact decides_all decideKept

/-- The alternatives of a condition that decides each too. -/
theorem Decides.alternatives {condition : Condition Operand} {holds : Bool}
    (decides : Decides row condition holds) :
    ∃ truths, List.Forall₂ (Decides row) condition.alternatives truths ∧
      truths.any id = holds := by
  cases condition with
  | any conditions =>
      have whole := decides
      obtain ⟨_, sent, short, _⟩ := whole
      obtain ⟨cells, sentMembers, rfl⟩ := map_eq_ok.mp sent
      rw [tests] at short
      obtain ⟨truths, each⟩ : ∃ truths, List.Forall₂ (Decides row) conditions truths :=
        decides_members sentMembers short
      exact ⟨truths, each, (decides_any each).unique decides⟩
  | constant _ | test _ | all _ =>
      exact ⟨[holds], List.Forall₂.cons decides List.Forall₂.nil, by simp⟩

theorem decides_flattened {conditions : List (Condition Operand)} {truths : List Bool}
    (each : List.Forall₂ (Decides row) conditions truths) :
    ∃ flattened, List.Forall₂ (Decides row)
        (conditions.flatMap Condition.alternatives) flattened ∧
      flattened.any id = truths.any id := by
  induction each with
  | nil => exact ⟨[], List.Forall₂.nil, rfl⟩
  | cons decides others induction =>
      obtain ⟨flattened, decideOthers, same⟩ := induction
      obtain ⟨first, decideFirst, sameFirst⟩ := decides.alternatives
      refine ⟨first ++ flattened, List.rel_append decideFirst decideOthers, ?_⟩
      rw [List.any_append, sameFirst, same, List.any_cons]
      rfl

theorem decides_disjunction {conditions : List (Condition Operand)} {truths : List Bool}
    (each : List.Forall₂ (Decides row) conditions truths) :
    Decides row (disjunction conditions) (truths.any id) := by
  unfold disjunction
  split
  · cases each with
    | cons decides rest =>
        cases rest
        simpa using decides
  · obtain ⟨flattened, decideFlattened, same⟩ := decides_flattened each
    rw [← same]
    exact decides_any decideFlattened

theorem refuted_of_isNever {conditions : List (Condition Operand)} {truths : List Bool}
    (each : List.Forall₂ (Decides row) conditions truths)
    (never : conditions.any isNever = true) : truths.all id = false := by
  induction each with
  | nil => simp at never
  | cons decides others induction =>
      rw [List.any_cons, Bool.or_eq_true] at never
      cases never with
      | inl first => simp [decides.of_isNever first]
      | inr rest => simp [induction rest]

theorem decides_stated {conditions : List (Condition Operand)} {truths : List Bool}
    (each : List.Forall₂ (Decides row) conditions truths) :
    ∃ kept, List.Forall₂ (Decides row) (stated conditions) kept ∧
      kept.all id = truths.all id := by
  unfold stated
  split
  · rename_i never
    refine ⟨[false], List.Forall₂.cons (decides_constant false) List.Forall₂.nil, ?_⟩
    simp [refuted_of_isNever each never]
  · obtain ⟨kept, decideKept, same⟩ := decides_restricting each
    rw [← same]
    split
    · rename_i none
      rw [none, List.forall₂_nil_left_iff] at decideKept
      subst decideKept
      split
      · exact ⟨[], List.Forall₂.nil, rfl⟩
      · exact ⟨[true], List.Forall₂.cons (decides_constant true) List.Forall₂.nil, rfl⟩
    · exact ⟨kept, decideKept, rfl⟩

end Condition

/-! ## Runs -/

section Runs

variable {α β : Type} {relation : α → β → Prop} {opens : α → Bool} {opensOther : β → Bool}

/-- Items that correspond and open runs alike fall into runs that correspond. -/
theorem forall₂_runsBy (alike : ∀ item other, relation item other → opens item = opensOther other)
    {items : List α} {others : List β} (correspond : List.Forall₂ relation items others) :
    List.Forall₂ (List.Forall₂ relation) (Filter.runsBy opens items)
      (Filter.runsBy opensOther others) := by
  induction correspond with
  | nil => exact List.Forall₂.nil
  | @cons item other items others first rest induction =>
      have alone : List.Forall₂ relation [item] [other] := List.Forall₂.cons first List.Forall₂.nil
      rw [Filter.runsBy, Filter.runsBy]
      cases rest with
      | nil => exact List.Forall₂.cons alone induction
      | @cons following otherFollowing _ _ next rest =>
          cases runs : Filter.runsBy opens (following :: _) <;>
            cases otherRuns : Filter.runsBy opensOther (otherFollowing :: _) <;>
            rw [runs, otherRuns] at induction
          · exact List.Forall₂.cons alone List.Forall₂.nil
          · cases induction
          · cases induction
          · rw [Filter.consRun, Filter.consRun, alike following otherFollowing next]
            cases induction with
            | cons run runs =>
                cases opensOther otherFollowing with
                | true => exact List.Forall₂.cons alone (List.Forall₂.cons run runs)
                | false => exact List.Forall₂.cons (List.Forall₂.cons first run) runs

end Runs

end ResourceServer.Sql
