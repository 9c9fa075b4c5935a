import ResourceServer.Inspection
import ResourceServer.Journal

/-!
# Scripted hooks

A script says for each point of a batch which steps a hook takes there. A step may be limited to one call
or to one entity. The first step that replies or fails ends the call; without one the batch proceeds. Every
call is entered into the journal.
-/

namespace ResourceServer

/-- What one step of a script does. -/
inductive ScriptAction
  | reply (reply : HookReply)
  | respondKeys
  | respondContext
  | fail (error : Error)
  | setAttribute (name : String) (value : Value)
  | unsetAttribute (name : String)
  | attach (name : String) (related : Related)
  | deleteRow (key : Option Value)
  | begin
  | commit
deriving Inhabited

/-- A step of a script, and the call and the entity that it is limited to. -/
structure ScriptStep where
  action : ScriptAction
  call : Option Value := none
  key : Option Value := none
deriving Inhabited

/-- The steps of a script at each point that it names. -/
abbrev Script := List (String × List ScriptStep)

namespace ScriptStep

/-- Whether a step is taken in a call. -/
def appliesTo (step : ScriptStep) (call : Nat) (entity : Option Entity) : Bool :=
  (step.call.all fun wanted => wanted.same (.int call))
    && step.key.all fun wanted => (entity.map Entity.key).any fun key => key.same wanted

/-- Changes the attributes of an entity. A call for a whole batch has no entity to change. -/
def changing {σ : Type} (entity : Option Entity) (change : Entity → Entity) :
    Action σ (Option Entity × Option HookReply) :=
  match entity with
  | none => throw (.plain .attribute)
  | some entity => pure (some (change entity), none)

variable {σ : Type} [Store σ]

/-- Takes a step: the entity after it, and the reply that ends the call. -/
def perform (step : ScriptStep) (context : BatchContext) (entity : Option Entity) :
    Action σ (Option Entity × Option HookReply) := do
  match step.action with
  | .reply reply => pure (entity, some reply)
  | .respondKeys => pure (entity, some (.respond (.list (context.entities.map Entity.key))))
  | .respondContext => pure (entity, some (.respond (context.toValue entity)))
  | .fail error => throw error
  | .setAttribute name value =>
      changing entity fun entity => entity.withAttributes (entity.attributes.set name value)
  | .unsetAttribute name =>
      changing entity fun entity => entity.withAttributes (entity.attributes.erase name)
  | .attach name related => changing entity fun entity => entity.attach name related
  | .deleteRow key =>
      let _ ← Store.delete context.resource (key.getD ((entity.map Entity.key).getD .null))
      pure (entity, none)
  | .begin =>
      Store.begin
      pure (entity, none)
  | .commit =>
      Store.commit
      pure (entity, none)

end ScriptStep

namespace Script

variable {σ : Type} [Store σ]

/-- Takes steps until one of them replies. -/
def takeSteps (context : BatchContext) (call : Nat) :
    List ScriptStep → Option Entity → Action σ (Option Entity × HookReply)
  | [], entity => pure (entity, .proceed)
  | step :: rest, entity => do
      if step.appliesTo call entity then
        match ← step.perform context entity with
        | (changed, some reply) => pure (changed, reply)
        | (changed, none) => takeSteps context call rest changed
      else takeSteps context call rest entity

/-- Calls a script at a point. -/
def callAt (script : Script) (owner : String) (position : Nat) (point : String)
    (context : BatchContext) (entity : Option Entity) :
    Action (Journaled σ) (Option Entity × HookReply) := do
  match script.lookup point with
  | none => pure (entity, .proceed)
  | some steps => do
      Journal.note (.list [.text context.verb.word, .int position, .text point,
        .ofOption (entity.map Entity.key)])
      let call ← Journal.tick s!"{owner}/{context.verb.word}/{position}/{point}"
      takeSteps context call steps entity

/-- The hook set of a script at a position of a chain. -/
def toHookSet (script : Script) (owner : String) (position : Nat := 0) : HookSet (Journaled σ) where
  atBatch point context := do
    let (_, reply) ← script.callAt owner position point.word context none
    pure reply
  atEntity point context entity := do
    let (changed, reply) ← script.callAt owner position point.word context (some entity)
    pure (changed.getD entity, reply)

/-- The chain of scripts. -/
def toChain (scripts : List Script) (owner : String) : Hooks (Journaled σ) :=
  .chain (scripts.zipIdx.map fun (script, position) => .single (script.toHookSet owner position))

end Script

end ResourceServer
