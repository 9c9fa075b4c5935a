import ResourceServer.Proofs.Action

/-!
# Two runs of one program

A program is run twice, on data that agree in what it may look at.  The runs correspond when
both fail with the same error, or both yield results that are related in their turn.  Actions
run in parallel when this is so from every two states that are alike, and the states that
they leave are alike again.
-/

namespace ResourceServer

/-- Both computations fail with the same error, or they yield related results. -/
inductive Corresponds {α β : Type} (related : α → β → Prop) :
    Except Error α → Except Error β → Prop
  | ok {left : α} {right : β} (holds : related left right) :
      Corresponds related (.ok left) (.ok right)
  | error (error : Error) : Corresponds related (.error error) (.error error)

namespace Corresponds

variable {α β γ δ : Type} {related : α → β → Prop}

theorem same {relation : α → α → Prop} (reflexive : ∀ value, relation value value)
    (result : Except Error α) : Corresponds relation result result := by
  cases result with
  | error error => exact .error error
  | ok value => exact .ok (reflexive value)

theorem weaken {wider : α → β → Prop} {left : Except Error α} {right : Except Error β}
    (corresponds : Corresponds related left right)
    (implies : ∀ left right, related left right → wider left right) :
    Corresponds wider left right := by
  cases corresponds with
  | error error => exact .error error
  | ok holds => exact .ok (implies _ _ holds)

theorem bind {final : γ → δ → Prop} {left : Except Error α} {right : Except Error β}
    {nextLeft : α → Except Error γ} {nextRight : β → Except Error δ}
    (first : Corresponds related left right)
    (rest : ∀ left right, related left right →
      Corresponds final (nextLeft left) (nextRight right)) :
    Corresponds final (left >>= nextLeft) (right >>= nextRight) := by
  cases first with
  | error error => exact .error error
  | ok holds => exact rest _ _ holds

/-- Both computations start with the same one. -/
theorem bind_same {final : γ → δ → Prop} (result : Except Error α)
    {nextLeft : α → Except Error γ} {nextRight : α → Except Error δ}
    (rest : ∀ value, Corresponds final (nextLeft value) (nextRight value)) :
    Corresponds final (result >>= nextLeft) (result >>= nextRight) := by
  cases result with
  | error error => exact .error error
  | ok value => exact rest value

theorem foldlM {step : β → α → Except Error β} {relation : β → β → Prop}
    {stepRight : β → α → Except Error β} {items : List α}
    (steps : ∀ item ∈ items, ∀ left right, relation left right →
      Corresponds relation (step left item) (stepRight right item))
    {left right : β} (holds : relation left right) :
    Corresponds relation (items.foldlM step left) (items.foldlM stepRight right) := by
  induction items generalizing left right with
  | nil => exact .ok holds
  | cons item rest induction =>
      rw [List.forall_mem_cons] at steps
      rw [List.foldlM_cons, List.foldlM_cons]
      exact .bind (steps.1 left right holds) fun _ _ holds => induction steps.2 holds

end Corresponds

namespace Action

variable {σ α β γ δ : Type} {alike : σ → σ → Prop} {related : α → β → Prop}

/-- From alike states, two actions yield corresponding results and leave alike states. -/
def Parallel (alike : σ → σ → Prop) (related : α → β → Prop) (left : Action σ α)
    (right : Action σ β) : Prop :=
  ∀ first second, alike first second →
    Corresponds related (left.perform first).1 (right.perform second).1 ∧
      alike (left.perform first).2 (right.perform second).2

namespace Parallel

theorem pure {left : α} {right : β} (holds : related left right) :
    Parallel alike related (Pure.pure left) (Pure.pure right) :=
  fun _ _ states => ⟨.ok holds, states⟩

theorem ofExcept {left : Except Error α} {right : Except Error β}
    (corresponds : Corresponds related left right) :
    Parallel alike related (Action.ofExcept left) (Action.ofExcept right) := by
  intro first second states
  cases corresponds with
  | error error => exact ⟨.error error, states⟩
  | ok holds => exact ⟨.ok holds, states⟩

theorem weaken {wider : α → β → Prop} {left : Action σ α} {right : Action σ β}
    (parallel : Parallel alike related left right)
    (implies : ∀ left right, related left right → wider left right) :
    Parallel alike wider left right := by
  intro first second states
  obtain ⟨results, after⟩ := parallel first second states
  exact ⟨results.weaken implies, after⟩

theorem bind {final : γ → δ → Prop} {left : Action σ α} {right : Action σ β}
    {nextLeft : α → Action σ γ} {nextRight : β → Action σ δ}
    (parallel : Parallel alike related left right)
    (rest : ∀ left right, related left right →
      Parallel alike final (nextLeft left) (nextRight right)) :
    Parallel alike final (left >>= nextLeft) (right >>= nextRight) := by
  intro first second states
  obtain ⟨results, after⟩ := parallel first second states
  rw [perform_bind, perform_bind]
  generalize left.perform first = leftRun at results after
  generalize right.perform second = rightRun at results after
  obtain ⟨leftResult, leftState⟩ := leftRun
  obtain ⟨rightResult, rightState⟩ := rightRun
  cases results with
  | error error => exact ⟨.error error, after⟩
  | ok holds => exact rest _ _ holds leftState rightState after

/-- What both actions compute first does not look at the state. -/
theorem compute {final : γ → δ → Prop} (result : Except Error α) {nextLeft : α → Action σ γ}
    {nextRight : α → Action σ δ}
    (rest : ∀ value, result = .ok value →
      Parallel alike final (nextLeft value) (nextRight value)) :
    Parallel alike final (Action.ofExcept result >>= nextLeft)
      (Action.ofExcept result >>= nextRight) := by
  cases result with
  | error error => exact fun _ _ states => ⟨.error error, states⟩
  | ok value => exact rest value rfl

theorem foldlM {relation : β → β → Prop} {step stepRight : β → α → Action σ β}
    {items : List α}
    (steps : ∀ item ∈ items, ∀ left right, relation left right →
      Parallel alike relation (step left item) (stepRight right item))
    {left right : β} (holds : relation left right) :
    Parallel alike relation (items.foldlM step left) (items.foldlM stepRight right) := by
  induction items generalizing left right with
  | nil => exact .pure holds
  | cons item rest induction =>
      rw [List.forall_mem_cons] at steps
      rw [List.foldlM_cons, List.foldlM_cons]
      exact .bind (steps.1 left right holds) fun _ _ holds => induction steps.2 holds

end Parallel

end Action

end ResourceServer
