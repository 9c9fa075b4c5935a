import ResourceServer.Entity
import ResourceServer.Page

/-!
# Stores

A store keeps the rows of all resources. An action runs against a store and either yields a result or
fails; what it has written until then stays written, unless a transaction takes it back. Every kind of
store provides the same few operations, and everything else here is built on them.
-/

namespace ResourceServer

/-- A computation on a store that may fail. -/
abbrev Action (σ : Type) := ExceptT Error (StateM σ)

namespace Action

/-- Runs an action: its result and the store it leaves behind. -/
def perform {σ α : Type} (action : Action σ α) (state : σ) : Except Error α × σ := action state

/-- An action that only computes. -/
def ofExcept {σ α : Type} (result : Except Error α) : Action σ α :=
  match result with
  | .ok value => pure value
  | .error error => throw error

/-- Continues with the outcome of an action, whether it failed or not. -/
def attempt {σ α : Type} (action : Action σ α) : Action σ (Except Error α) := fun state =>
  let (result, after) := action state
  (.ok result, after)

/-- Runs an action on the first part of a state. -/
def onFirst {σ τ α : Type} (action : Action σ α) : Action (σ × τ) α := fun (first, second) =>
  let (result, after) := action first
  (result, (after, second))

end Action

/-- The operations that every store provides. -/
class Store (σ : Type) where
  /-- Rows that match a specification, in its order, from an offset on and up to a limit. -/
  fetchRows : Registry → QuerySpec → (offset limit : Option Int) → Action σ (List Record)
  /-- Number of rows that match a specification. -/
  count : Registry → QuerySpec → Action σ Int
  /-- Adds a row; yields its key. -/
  insert : Resource → Record → Action σ Value
  /-- Changes a row; yields the number of rows that were changed. -/
  update : Resource → (key : Value) → (changes : Record) → Action σ Int
  /-- Removes a row; yields the number of rows that were removed. -/
  delete : Resource → (key : Value) → Action σ Int
  /-- Opens a transaction. -/
  begin : Action σ Unit
  /-- Closes the transaction and keeps its writes. -/
  commit : Action σ Unit
  /-- Closes the transaction and takes its writes back. -/
  rollback : Action σ Unit
  /-- Whether a transaction is open. -/
  inTransaction : σ → Bool
  /-- Prepares the tables of the given models, or of all resources. -/
  prepare : Registry → Option (List Model) → Action σ Unit

/-- A store beside other state is a store. -/
instance {σ τ : Type} [Store σ] : Store (σ × τ) where
  fetchRows registry spec offset limit := (Store.fetchRows registry spec offset limit : Action σ _).onFirst
  count registry spec := (Store.count registry spec : Action σ _).onFirst
  insert resource values := (Store.insert resource values : Action σ _).onFirst
  update resource key changes := (Store.update resource key changes : Action σ _).onFirst
  delete resource key := (Store.delete resource key : Action σ _).onFirst
  begin := (Store.begin : Action σ _).onFirst
  commit := (Store.commit : Action σ _).onFirst
  rollback := (Store.rollback : Action σ _).onFirst
  inTransaction state := Store.inTransaction state.1
  prepare registry models := (Store.prepare registry models : Action σ _).onFirst

namespace Store

variable {σ : Type} [Store σ]

/-- Marks a row as trashed. -/
def softDelete (now : Moment) (resource : Resource) (key : Value) : Action σ Int :=
  if resource.softDeletes then update resource key [(resource.deletedAtColumn, .moment now)]
  else throw (.noSoftDeletes resource.name)

/-- Takes the mark of a trashed row away. -/
def restore (resource : Resource) (key : Value) : Action σ Int :=
  if resource.softDeletes then update resource key [(resource.deletedAtColumn, .null)]
  else throw (.noSoftDeletes resource.name)

/-- Runs an action inside a transaction, which is taken back when the action fails. -/
def transaction {α : Type} (action : Action σ α) : Action σ α := do
  begin
  match ← action.attempt with
  | .ok result =>
      commit
      pure result
  | .error error =>
      rollback
      throw error

end Store

end ResourceServer
