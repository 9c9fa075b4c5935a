import ResourceServer.Query.Fetch
import ResourceServer.Store

/-!
# Hooks of batches

Hooks are called at fixed points of a batch. Each one lets the batch proceed or ends it with a response of
its own. A hook at an entity may change that entity, and every hook may use the store. Hook sets can be
chained: they are called in order until one of them responds, and a member that replies with something else
than these two is an error.
-/

namespace ResourceServer

/-- What a batch does to its entities. -/
inductive BatchVerb
  | store
  | update
  | destroy
  | restore
deriving DecidableEq, Repr, Inhabited

namespace BatchVerb

/-- The word for a verb. -/
def word : BatchVerb → String
  | .store => "store"
  | .update => "update"
  | .destroy => "destroy"
  | .restore => "restore"

/-- The verb that a word names. -/
def ofWord? (word : String) : Option BatchVerb :=
  [BatchVerb.store, .update, .destroy, .restore].find? fun verb => verb.word == word

/-- Whether the attributes of entities are written. -/
def saves : BatchVerb → Bool
  | .store => true
  | .update => true
  | .destroy => false
  | .restore => false

end BatchVerb

/-- What the hooks of one batch share. -/
structure BatchContext where
  verb : BatchVerb
  resource : Resource
  request : Request
  parameters : QueryParameters
  requested : List RelationRequest
  /-- Filters that every target satisfies. -/
  scopes : List Filter.Node := []
  /-- Attributes that every stored entity gets. -/
  attributes : Record := []
  /-- Whether rows are removed although they could be trashed. -/
  force : Bool := false
  /-- The entities that are done, in order. -/
  entities : List Entity := []
deriving Inhabited

/-- What a hook replies. -/
inductive HookReply
  | proceed
  | respond (response : Value)
  | stray (reply : Value)
deriving Repr, Inhabited

/-- The points of a batch at which hooks are called once. -/
inductive BatchPoint
  | beforeBatch
  | afterBatch
deriving DecidableEq, Repr

/-- The points at which hooks are called for each entity. -/
inductive EntityPoint
  | beforeAction
  | beforeSave
  | beforeFresh
  | afterSave
  | afterAction
deriving DecidableEq, Repr

/-- The word for a point of a batch. -/
def BatchPoint.word : BatchPoint → String
  | .beforeBatch => "before_batch"
  | .afterBatch => "after_batch"

/-- The word for a point of an entity. -/
def EntityPoint.word : EntityPoint → String
  | .beforeAction => "before_action"
  | .beforeSave => "before_save"
  | .beforeFresh => "before_fresh"
  | .afterSave => "after_save"
  | .afterAction => "after_action"

/-- A set of hooks for one verb. The label names the kind of set in messages. -/
structure HookSet (σ : Type) where
  label : String := "FunctionHooks"
  atBatch : BatchPoint → BatchContext → Action σ HookReply := fun _ _ => pure .proceed
  atEntity : EntityPoint → BatchContext → Entity → Action σ (Entity × HookReply) :=
    fun _ _ entity => pure (entity, .proceed)

/-- The hooks of a verb: none at all, one set, or a chain. -/
inductive Hooks (σ : Type)
  | silent
  | single (set : HookSet σ)
  | chain (members : List (Hooks σ))

namespace Hooks

variable {σ α : Type}

/-- The label of hooks in messages. -/
def label : Hooks σ → String
  | .silent => ""
  | .single set => set.label
  | .chain _ => ""

/-- Whether there is nothing to call. -/
def isEmptyChain : Hooks σ → Bool
  | .chain [] => true
  | _ => false

mutual

/-- Calls hooks with an input that they may change. -/
def run (call : HookSet σ → α → Action σ (α × HookReply)) (point : String) :
    Hooks σ → α → Action σ (α × HookReply)
  | .silent, input => pure (input, .proceed)
  | .single set, input => call set input
  | .chain members, input => runMembers call point members input

/-- Calls the members of a chain until one of them responds. -/
def runMembers (call : HookSet σ → α → Action σ (α × HookReply)) (point : String) :
    List (Hooks σ) → α → Action σ (α × HookReply)
  | [], input => pure (input, .proceed)
  | hooks :: rest, input => do
      match ← run call point hooks input with
      | (changed, .proceed) => runMembers call point rest changed
      | (changed, .respond response) => pure (changed, .respond response)
      | (_, .stray reply) => throw (.strayHookReply hooks.label point reply)

end

/-- Calls hooks at a point of a batch. -/
def atBatch (hooks : Hooks σ) (point : BatchPoint) (context : BatchContext) : Action σ HookReply := do
  let call (set : HookSet σ) (_ : Unit) : Action σ (Unit × HookReply) := do
    let reply ← set.atBatch point context
    pure ((), reply)
  let (_, reply) ← hooks.run call point.word ()
  pure reply

/-- Calls hooks at a point of an entity. -/
def atEntity (hooks : Hooks σ) (point : EntityPoint) (context : BatchContext) (entity : Entity) :
    Action σ (Entity × HookReply) :=
  hooks.run (fun set entity => set.atEntity point context entity) point.word entity

end Hooks

/-- The response of a reply, if it is one. A reply that is neither a response nor leave to proceed
cannot be used. -/
def HookReply.response? {σ : Type} : HookReply → Action σ (Option Value)
  | .proceed => pure none
  | .respond response => pure (some response)
  | .stray _ => throw (.plain .attribute)

end ResourceServer
