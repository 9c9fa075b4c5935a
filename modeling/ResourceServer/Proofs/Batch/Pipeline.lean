import ResourceServer.Proofs.Batch.Transaction
import ResourceServer.Samples.Library

/-!
# Pipeline of a batch

The calls that a batch makes are exactly its schedule, cut after the first call that fails or
is ended by a response of a hook.  What the batch answers is read off these calls, and what
stays in the store is what the last of them has left, or nothing at all after a failure.
-/

namespace ResourceServer

namespace Unfolds

variable {σ : Type} {verb : BatchVerb} {targets : List BatchTarget} {steps : List BatchStep}
variable {current : Option Entity} {before after : σ} {ending : Ending (Option Entity)}
variable {front back : List (BatchEntry σ)} {entry : BatchEntry σ}

/-- Every call before another one has passed. -/
theorem passed_before
    (unfolds : Unfolds verb targets steps current before (front ++ entry :: back) ending after) :
    ∀ earlier ∈ front, ∃ left, earlier.ending = .ok (.ok left) := by
  induction front generalizing steps current before with
  | nil => simp
  | cons head front induction =>
      intro earlier member
      rw [List.cons_append] at unfolds
      generalize isRest : front ++ entry :: back = rest at unfolds
      cases unfolds with
      | passed unfolds =>
          subst isRest
          cases List.mem_cons.mp member with
          | inl same =>
              subst same
              exact ⟨_, rfl⟩
          | inr member => exact induction unfolds earlier member
      | responded => simp at isRest
      | failed => simp at isRest

end Unfolds

/-- In the steps, every write comes after the authorization of its entity. -/
def WritesAuthorized (steps : List BatchStep) : Prop :=
  ∀ front back position, steps = front ++ .write position :: back → .authorize position ∈ front

namespace WritesAuthorized

theorem append {first second : List BatchStep} (firstHolds : WritesAuthorized first)
    (secondHolds : WritesAuthorized second) : WritesAuthorized (first ++ second) := by
  intro front back position same
  cases List.append_eq_append_iff.mp same with
  | inl inSecond =>
      obtain ⟨between, isFront, isSecond⟩ := inSecond
      rw [isFront]
      exact List.mem_append_right first (secondHolds between back position isSecond)
  | inr inFirst =>
      obtain ⟨between, isFirst, isRest⟩ := inFirst
      cases between with
      | nil => exact absurd (secondHolds [] back position isRest.symm) List.not_mem_nil
      | cons step between =>
          cases isRest
          exact firstHolds front between position isFirst

/-- Steps that begin with an authorization may go on to write the same entity. -/
theorem authorized {position : Nat} {rest : List BatchStep}
    (same : ∀ other, .write other ∈ rest → other = position) :
    WritesAuthorized (.authorize position :: rest) := by
  intro front back other isSplit
  cases front with
  | nil => cases isSplit
  | cons step front =>
      cases isSplit
      rw [same other (by simp)]
      exact List.mem_cons_self

theorem silent {steps : List BatchStep} (writeless : ∀ position, .write position ∉ steps) :
    WritesAuthorized steps := by
  intro front back position isSplit
  exact absurd (by simp [isSplit]) (writeless position)

theorem schedule (context : BatchContext) (count : Nat) :
    WritesAuthorized (context.schedule count) := by
  have entity : ∀ position, WritesAuthorized (context.entitySchedule position) := by
    intro position
    refine authorized ?_
    intro other member
    cases saves : context.verb.saves <;> cases readsBack : context.readsBack <;>
      simpa [saves, readsBack] using member
  have entities : ∀ position, WritesAuthorized (context.entitySchedules position count) := by
    induction count with
    | zero => exact fun _ => silent nofun
    | succ count induction => exact fun position => (entity position).append (induction _)
  have opening : WritesAuthorized [.atBatch .beforeBatch] := silent (by simp)
  exact (opening.append (entities 0)).append (silent (by simp))

end WritesAuthorized

/-- No entity is written before its authorization has passed. -/
theorem Unfolds.authorized_before_write {σ : Type} {context : BatchContext}
    {targets : List BatchTarget} {count position : Nat} {before after : σ}
    {front back : List (BatchEntry σ)} {entry : BatchEntry σ} {ending : Ending (Option Entity)}
    (unfolds : Unfolds context.verb targets (context.schedule count) none before
      (front ++ entry :: back) ending after)
    (writes : entry.step = .write position) :
    ∃ earlier ∈ front, earlier.step = .authorize position ∧
      ∃ left, earlier.ending = .ok (.ok left) := by
  obtain ⟨rest, isSchedule⟩ := unfolds.steps_prefix
  have isSplit : context.schedule count =
      front.map BatchEntry.step ++ .write position :: (back.map BatchEntry.step ++ rest) := by
    rw [← isSchedule, List.map_append, List.map_cons, writes, List.append_assoc, List.cons_append]
  have authorized := WritesAuthorized.schedule context count _ _ position isSplit
  obtain ⟨earlier, member, isAuthorize⟩ := List.mem_map.mp authorized
  exact ⟨earlier, member, isAuthorize, unfolds.passed_before earlier member⟩

variable {τ : Type}

/-- Hooks that respond after the second entity. -/
def satisfiedHooks : HookSet (Memory × τ) where
  atEntity point context entity :=
    if point = .afterAction ∧ context.entities.length = 1 then
      pure (entity, .respond (.text "enough"))
    else pure (entity, .proceed)

/-- An endpoint for the nodes of a tree with such hooks on storing. -/
def satisfiedEndpoint : Endpoint (Memory × Unit) where
  registry := {}
  now := Samples.Library.trashedAt
  binding := { resource := Samples.Library.nodes, hooks := [(.store, .single satisfiedHooks)] }

theorem satisfiedEndpoint_respects :
    satisfiedEndpoint.binding.Respects Memory.KeepsTransaction fun _ _ => True where
  authorizer _ _ _ := .pure fun _ _ _ _ => trivial
  hooks verb := by
    cases verb with
    | store =>
        refine ⟨fun _ _ => .pure trivial, fun point context entity => ?_⟩
        simp only [satisfiedHooks]
        split
        · exact .pure trivial
        · exact .pure trivial
    | _ => trivial

end ResourceServer
