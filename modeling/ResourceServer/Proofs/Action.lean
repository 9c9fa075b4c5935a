import Mathlib.Order.Defs.Unbundled
import ResourceServer.Batch

/-!
# Runs of actions

How an action that is put together from others runs, and a judgment on actions that is
closed under putting them together: every run relates the store before it to the store
after it, whether it fails or not, and every result it yields has a property.
-/

namespace ResourceServer

/-- A computation in two parts succeeds when both parts do. -/
theorem bind_eq_ok {α β : Type} {result : Except Error α} {next : α → Except Error β}
    {final : β} :
    result >>= next = .ok final ↔ ∃ value, result = .ok value ∧ next value = .ok final := by
  cases result with
  | error error =>
      constructor
      · intro done
        cases done
      · rintro ⟨value, done, _⟩
        cases done
  | ok value =>
      constructor
      · intro done
        exact ⟨value, rfl, done⟩
      · rintro ⟨value, done, final⟩
        cases done
        exact final

/-- A computation in two parts fails when one of them does. -/
theorem bind_eq_error {α β : Type} {result : Except Error α} {next : α → Except Error β}
    {error : Error} :
    result >>= next = .error error ↔
      result = .error error ∨ ∃ value, result = .ok value ∧ next value = .error error := by
  cases result with
  | error cause =>
      change Except.error cause = .error error ↔ _
      simp
  | ok value =>
      change next value = .error error ↔ _
      simp

namespace Action

variable {σ τ α β : Type}

/-! ## Equations -/

@[simp] theorem perform_pure (value : α) (state : σ) :
    (pure value : Action σ α).perform state = (.ok value, state) := rfl

@[simp] theorem perform_throw (error : Error) (state : σ) :
    (throw error : Action σ α).perform state = (.error error, state) := rfl

theorem perform_bind (action : Action σ α) (next : α → Action σ β) (state : σ) :
    (action >>= next).perform state =
      match action.perform state with
      | (.ok value, after) => (next value).perform after
      | (.error error, after) => (.error error, after) := by
  change (ExceptT.bindCont next (action state).1) (action state).2 = _
  unfold perform
  cases action state with
  | mk result after => cases result <;> rfl

theorem perform_bind_ok {action : Action σ α} {state after : σ} {value : α}
    (done : action.perform state = (.ok value, after)) (next : α → Action σ β) :
    (action >>= next).perform state = (next value).perform after := by
  rw [perform_bind, done]

theorem perform_bind_error {action : Action σ α} {state after : σ} {error : Error}
    (failed : action.perform state = (.error error, after)) (next : α → Action σ β) :
    (action >>= next).perform state = (.error error, after) := by
  rw [perform_bind, failed]

theorem perform_bind_eq_ok {action : Action σ α} {next : α → Action σ β} {state after : σ}
    {final : β} :
    (action >>= next).perform state = (.ok final, after) ↔
      ∃ value middle, action.perform state = (.ok value, middle) ∧
        (next value).perform middle = (.ok final, after) := by
  constructor
  · intro done
    cases run : action.perform state with
    | mk result middle =>
        cases result with
        | error error =>
            rw [perform_bind_error run] at done
            cases done
        | ok value =>
            rw [perform_bind_ok run] at done
            exact ⟨value, middle, rfl, done⟩
  · rintro ⟨value, middle, first, rest⟩
    rw [perform_bind_ok first, rest]

/-- What is only computed comes first and leaves the state to the rest. -/
theorem perform_compute_eq_ok {result : Except Error α} {next : α → Action σ β}
    {state after : σ} {final : β} :
    (ofExcept result >>= next).perform state = (.ok final, after) ↔
      ∃ value, result = .ok value ∧ (next value).perform state = (.ok final, after) := by
  cases result with
  | error error =>
      constructor
      · intro done
        cases done
      · rintro ⟨value, done, _⟩
        cases done
  | ok computed =>
      constructor
      · intro done
        exact ⟨computed, rfl, done⟩
      · rintro ⟨value, done, rest⟩
        cases done
        exact rest

/-- An action comes to a result that passes a test together with the state after it. -/
def comesTo (action : Action σ α) (state : σ) (test : α → σ → Bool) : Bool :=
  match action.perform state with
  | (.ok value, after) => test value after
  | (.error _, _) => false

theorem comesTo_eq_true {action : Action σ α} {state : σ} {test : α → σ → Bool} :
    action.comesTo state test = true ↔
      ∃ value after, action.perform state = (.ok value, after) ∧ test value after = true := by
  unfold comesTo
  constructor
  · intro passes
    cases run : action.perform state with
    | mk result after =>
        rw [run] at passes
        cases result with
        | error error => cases passes
        | ok value => exact ⟨value, after, rfl, passes⟩
  · rintro ⟨value, after, run, passes⟩
    rw [run]
    exact passes

@[simp] theorem ofExcept_ok (value : α) : (ofExcept (.ok value) : Action σ α) = pure value := rfl

@[simp] theorem ofExcept_error (error : Error) :
    (ofExcept (.error error) : Action σ α) = throw error := rfl

theorem perform_attempt (action : Action σ α) (state : σ) :
    action.attempt.perform state = (.ok (action.perform state).1, (action.perform state).2) := rfl

theorem perform_onFirst (action : Action σ α) (first : σ) (second : τ) :
    (action.onFirst : Action (σ × τ) α).perform (first, second) =
      ((action.perform first).1, ((action.perform first).2, second)) := rfl

/-! ## Judgments -/

/-- Every run of the action relates the states before and after it, and every result that
it yields has the property. -/
def Ensures (relation : σ → σ → Prop) (property : α → Prop) (action : Action σ α) : Prop :=
  ∀ state, relation state (action.perform state).2 ∧
    ∀ value, (action.perform state).1 = .ok value → property value

namespace Ensures

variable {relation : σ → σ → Prop}

theorem weaken {property weaker : α → Prop} {action : Action σ α}
    (ensures : action.Ensures relation property)
    (implies : ∀ value, property value → weaker value) :
    action.Ensures relation weaker := by
  intro state
  obtain ⟨related, holds⟩ := ensures state
  exact ⟨related, fun value done => implies value (holds value done)⟩

theorem relax {wider : σ → σ → Prop} {property : α → Prop} {action : Action σ α}
    (ensures : action.Ensures relation property)
    (implies : ∀ before after, relation before after → wider before after) :
    action.Ensures wider property := by
  intro state
  obtain ⟨related, holds⟩ := ensures state
  exact ⟨implies _ _ related, holds⟩

/-- Of nothing in particular, every action can be sure. -/
theorem always (action : Action σ α) : action.Ensures (fun _ _ => True) fun _ => True :=
  fun _ => ⟨trivial, fun _ _ => trivial⟩

theorem relatesError {property : α → Prop} {action : Action σ α} {state after : σ}
    {error : Error} (ensures : action.Ensures relation property)
    (failed : action.perform state = (.error error, after)) : relation state after := by
  have related := (ensures state).1
  rwa [failed] at related

theorem relatesOk {property : α → Prop} {action : Action σ α} {state after : σ}
    {value : α} (ensures : action.Ensures relation property)
    (done : action.perform state = (.ok value, after)) :
    relation state after ∧ property value := by
  have both := ensures state
  rw [done] at both
  exact ⟨both.1, both.2 value rfl⟩

theorem attempt {property : α → Prop} {action : Action σ α}
    (ensures : action.Ensures relation property) :
    action.attempt.Ensures relation fun result => ∀ value, result = .ok value → property value := by
  intro state
  rw [perform_attempt]
  refine ⟨(ensures state).1, ?_⟩
  rintro result done
  cases done
  exact (ensures state).2

variable [Std.Refl relation]

theorem pure {property : α → Prop} {value : α} (holds : property value) :
    (Pure.pure value : Action σ α).Ensures relation property := by
  intro state
  refine ⟨Std.Refl.refl state, ?_⟩
  intro result done
  cases done
  exact holds

theorem throw {property : α → Prop} (error : Error) :
    (MonadExcept.throw error : Action σ α).Ensures relation property := by
  intro state
  exact ⟨Std.Refl.refl state, fun _ done => by cases done⟩

theorem ofExcept {property : α → Prop} {result : Except Error α}
    (holds : ∀ value, result = .ok value → property value) :
    (Action.ofExcept result : Action σ α).Ensures relation property := by
  cases result with
  | error error => exact throw error
  | ok value => exact pure (holds value rfl)

theorem compute (result : Except Error α) :
    (Action.ofExcept result : Action σ α).Ensures relation fun value => result = .ok value :=
  ofExcept fun _ done => done

omit [Std.Refl relation] in
theorem bind [IsTrans σ relation] {property : α → Prop} {final : β → Prop}
    {action : Action σ α} {next : α → Action σ β} (first : action.Ensures relation property)
    (rest : ∀ value, property value → (next value).Ensures relation final) :
    (action >>= next).Ensures relation final := by
  intro state
  cases run : action.perform state with
  | mk result middle =>
      cases result with
      | error error =>
          rw [perform_bind_error run]
          exact ⟨first.relatesError run, fun _ done => by cases done⟩
      | ok value =>
          rw [perform_bind_ok run]
          obtain ⟨toMiddle, holds⟩ := first.relatesOk run
          obtain ⟨fromMiddle, final⟩ := rest value holds middle
          exact ⟨IsTrans.trans _ _ _ toMiddle fromMiddle, final⟩

end Ensures

/-- The action yields a result and leaves the store as it is. -/
def Yields (action : Action σ α) (state : σ) (result : α) : Prop :=
  action.perform state = (.ok result, state)

theorem Yields.bind {action : Action σ α} {next : α → Action σ β} {state : σ} {value : α}
    {final : β} (first : action.Yields state value) (rest : (next value).Yields state final) :
    (action >>= next).Yields state final :=
  perform_bind_eq_ok.mpr ⟨value, state, first, rest⟩

theorem yields_ofExcept {result : Except Error α} {state : σ} {value : α} :
    (ofExcept result).Yields state value ↔ result = .ok value := by
  cases result with
  | error error =>
      constructor
      · intro done
        cases done
      · intro done
        cases done
  | ok computed =>
      constructor
      · intro done
        cases done
        rfl
      · intro done
        cases done
        rfl

theorem Ensures.yields_bind {property : α → Prop} {action : Action σ α} {next : α → Action σ β}
    {state : σ} {final : β} (quiet : action.Ensures (· = ·) property)
    (done : (action >>= next).Yields state final) :
    ∃ value, action.Yields state value ∧ (next value).Yields state final := by
  obtain ⟨value, middle, first, rest⟩ := perform_bind_eq_ok.mp done
  obtain ⟨rfl, _⟩ := quiet.relatesOk first
  exact ⟨value, first, rest⟩

end Action

namespace Interruptible

variable {σ α β : Type} {relation : σ → σ → Prop}

theorem perform_lift (action : Action σ α) (state : σ) :
    Action.perform (ExceptT.run (action : Interruptible σ α)) state =
      ((action.perform state).1.map Except.ok, (action.perform state).2) := by
  change Action.perform (action >>= fun value => pure (Except.ok value)) state = _
  rw [Action.perform_bind]
  cases action.perform state with
  | mk result after => cases result <;> rfl

theorem perform_bind (part : Interruptible σ α) (next : α → Interruptible σ β) (state : σ) :
    (part >>= next).run.perform state =
      match part.run.perform state with
      | (.ok (.ok value), after) => (next value).run.perform after
      | (.ok (.error response), after) => (.ok (.error response), after)
      | (.error error, after) => (.error error, after) := by
  change Action.perform (part.run >>= ExceptT.bindCont next) state = _
  rw [Action.perform_bind]
  cases part.run.perform state with
  | mk result after =>
      cases result with
      | error error => rfl
      | ok interruptible => cases interruptible <;> rfl

/-- Every run of a part of a batch relates the states before and after it, and every result
that it yields, unless a hook responds, has the property. -/
def Ensures (relation : σ → σ → Prop) (property : α → Prop) (part : Interruptible σ α) : Prop :=
  part.run.Ensures relation fun result => ∀ value, result = .ok value → property value

namespace Ensures

variable [Std.Refl relation]

theorem pure {property : α → Prop} {value : α} (holds : property value) :
    Interruptible.Ensures relation property (Pure.pure value : Interruptible σ α) :=
  Action.Ensures.pure (by
    intro result done
    cases done
    exact holds)

theorem respond {property : α → Prop} (response : Value) :
    Interruptible.Ensures relation property (throw response : Interruptible σ α) :=
  Action.Ensures.pure (by
    intro result done
    cases done)

variable [IsTrans σ relation]

theorem lift {property : α → Prop} {action : Action σ α}
    (ensures : action.Ensures relation property) :
    Interruptible.Ensures relation property (action : Interruptible σ α) := by
  refine Action.Ensures.bind ensures ?_
  intro value holds
  refine Action.Ensures.pure ?_
  intro result done
  cases done
  exact holds

theorem bind {property : α → Prop} {final : β → Prop} {part : Interruptible σ α}
    {next : α → Interruptible σ β} (first : Interruptible.Ensures relation property part)
    (rest : ∀ value, property value → Interruptible.Ensures relation final (next value)) :
    Interruptible.Ensures relation final (part >>= next) := by
  refine Action.Ensures.bind first ?_
  intro result holds
  cases result with
  | error response => exact respond response
  | ok value => exact rest value (holds value rfl)

end Ensures

end Interruptible

end ResourceServer
