import ResourceServer.Proofs.Batch.Transaction
import ResourceServer.Samples.Library

/-!
# Atomicity of a batch

A batch that fails leaves the store in memory as it found it, and fails with the error of the
step that has failed: the check of the request, the search for the targets, or the last call
that was made.  Its authorizer and its hooks may write to the store and may try to open a
transaction as they like, as long as they do not close the one of the batch.
-/

namespace ResourceServer

variable {τ : Type}

/-- What an error of a batch comes from. -/
inductive FailedStep (endpoint : Endpoint (Memory × τ)) (verb : BatchVerb) (request : Request)
    (input : BatchInput) (opened : Memory × τ) (log : List (BatchEntry (Memory × τ)))
    (error : Error) : Prop
  /-- The request could not be checked, and nothing was called. -/
  | preparation : endpoint.prepareBatch verb request input = .error error → log = [] →
      FailedStep endpoint verb request input opened log error
  /-- The targets could not be found after the hooks before the batch had passed. -/
  | search {context : BatchContext} {plan : BatchPlan} :
      endpoint.prepareBatch verb request input = .ok (context, plan) →
      (endpoint.steps (endpoint.binding.hooksFor verb)).openedTargets context plan opened =
        .error error →
      log.map BatchEntry.step = [.atBatch .beforeBatch] →
      FailedStep endpoint verb request input opened log error
  /-- The last call of the authorizer, of a hook or of the store has failed. -/
  | call {entry : BatchEntry (Memory × τ)} : log.getLast? = some entry →
      entry.ending = .error error → FailedStep endpoint verb request input opened log error

/-- When the notes of a batch account for an error, they name the step that has failed. -/
theorem BatchSteps.Follows.failedStep {endpoint : Endpoint (Memory × τ)} {verb : BatchVerb}
    {request : Request} {input : BatchInput} {context : BatchContext} {plan : BatchPlan}
    {opened inside : Memory × τ} {log : List (BatchEntry (Memory × τ))} {error : Error}
    (prepared : endpoint.prepareBatch verb request input = .ok (context, plan))
    (follows : (endpoint.steps (endpoint.binding.hooksFor verb)).Follows context plan opened log
      (.error error) inside) :
    FailedStep endpoint verb request input opened log error := by
  unfold BatchSteps.Follows at follows
  split at follows
  · rename_i unfound search
    obtain ⟨unfolds, same⟩ := follows
    cases same
    exact .search prepared search unfolds.steps_eq
  · obtain ⟨ending, unfolds, same⟩ := follows
    cases ending with
    | ok last => cases same
    | error raised =>
        cases same
        obtain ⟨entry, last, ends, _⟩ := unfolds.ending_of_last fun _ => nofun
        exact .call last ends

/-- A failing batch changes nothing in the store and fails with the very error of the step that
has failed; no batch leaves a transaction open. -/
theorem runBatch_atomic (endpoint : Endpoint (Memory × τ)) (verb : BatchVerb)
    (request : Request) (input : BatchInput)
    (leaves : endpoint.binding.Respects Memory.KeepsTransaction fun _ _ => True)
    (memory : Memory) (noneOpen : memory.snapshot = none) (side : τ) :
    let ran := (endpoint.runBatch verb request input).perform (memory, side)
    let recorded := (endpoint.recordedBatch verb request input).perform ((memory, side), [])
    recorded.1 = ran.1 ∧ recorded.2.1 = ran.2 ∧
      (∀ error, ran.1 = .error error →
        ran.2.1 = memory ∧
          FailedStep endpoint verb request input (memory.opened, side) recorded.2.2 error) ∧
      ran.2.1.snapshot = none ∧ ran.2.1.locks = memory.locks := by
  cases prepared : endpoint.prepareBatch verb request input with
  | error unprepared =>
      obtain ⟨runs, records⟩ := Endpoint.runBatch_unprepared prepared
      rw [runs, records]
      refine ⟨rfl, rfl, ?_, noneOpen, rfl⟩
      intro error failed
      cases failed
      exact ⟨rfl, .preparation prepared rfl⟩
  | ok both =>
      obtain ⟨context, plan⟩ := both
      obtain ⟨log, inside, records, follows, locked, left⟩ :=
        Endpoint.runBatch_account leaves noneOpen side prepared
      rw [records]
      revert follows left
      generalize (endpoint.runBatch verb request input).perform (memory, side) = ran
      obtain ⟨result, after⟩ := ran
      intro follows left
      cases result with
      | error error =>
          cases left
          refine ⟨rfl, rfl, ?_, noneOpen, rfl⟩
          intro raised failed
          cases failed
          exact ⟨rfl, follows.failedStep prepared⟩
      | ok outcome =>
          cases left
          refine ⟨rfl, rfl, nofun, rfl, ?_⟩
          change inside.1.locks - 1 = memory.locks
          rw [locked, Nat.add_sub_cancel]

/-- Hooks that write to the store and try to open a transaction at every point of an entity,
and fail after its write. -/
def unrulyHooks : HookSet (Memory × τ) where
  atEntity point context entity := do
    let _ ← (Store.insert context.resource [] : Action (Memory × τ) Value)
    let _ ← (Store.begin : Action (Memory × τ) Unit).attempt
    if point = .beforeFresh then throw (.plain .type) else pure (entity, .proceed)

theorem unrulyHooks_respects :
    (unrulyHooks : HookSet (Memory × τ)).Respects Memory.KeepsTransaction fun _ _ => True where
  atBatch _ _ := .pure trivial
  atEntity point context entity := by
    refine Action.Ensures.bind (Memory.insert_keepsTransaction _ _) fun _ _ => ?_
    refine Action.Ensures.bind Memory.begin_keepsTransaction.attempt fun _ _ => ?_
    split
    · exact .throw _
    · exact .pure trivial

/-- An endpoint for the nodes of a tree with unruly hooks on storing. -/
def unrulyEndpoint : Endpoint (Memory × Unit) where
  registry := {}
  now := Samples.Library.trashedAt
  binding := { resource := Samples.Library.nodes, hooks := [(.store, .single unrulyHooks)] }

theorem unrulyEndpoint_respects :
    unrulyEndpoint.binding.Respects Memory.KeepsTransaction fun _ _ => True where
  authorizer _ _ _ := .pure fun _ _ _ _ => trivial
  hooks verb := by
    cases verb with
    | store => exact unrulyHooks_respects
    | _ => trivial

theorem runBatch_atomic_unruly :
    let memory : Memory := { contents := { tables := [("nodes",
      [(.int 1, Samples.Library.nodeRow 1 "root" .null .null)])] } }
    let ran := (unrulyEndpoint.runBatch .store {} (.given (.list [.object []]))).perform
      (memory, ())
    unrulyEndpoint.binding.Respects Memory.KeepsTransaction (fun _ _ => True) ∧
      memory.snapshot = none ∧ (∃ error, ran.1 = .error error) ∧ ran.2.1 = memory := by
  intro memory ran
  have atomic := runBatch_atomic unrulyEndpoint .store {} (.given (.list [.object []]))
    unrulyEndpoint_respects memory rfl ()
  have fails : ran.1.isOk = false := by decide +kernel
  cases result : ran.1 with
  | ok outcome =>
      rw [result] at fails
      cases fails
  | error error =>
      exact ⟨unrulyEndpoint_respects, rfl, ⟨error, rfl⟩, (atomic.2.2.1 error result).1⟩

end ResourceServer
