import ResourceServer.Endpoint
import ResourceServer.Schema.Key
import ResourceServer.Store.Loading

/-!
# Batches

A batch stores, updates, destroys or restores several entities in one transaction. First everything that
can be wrong with the request is checked. Then, inside the transaction, each entity goes through the same
steps in order: authorization, hooks, the write, reading it back, hooks. A hook that responds ends the
batch, and what is done by then is kept; any failure takes everything back and is passed on unchanged.
-/

namespace ResourceServer

/-- What a batch produced: the entities that are done, and the response of a hook that ended it. -/
structure BatchOutcome where
  entities : List Entity := []
  response : Option Value := none
  requested : List RelationRequest := []
deriving Inhabited

/-- What a batch is given to work on. -/
inductive BatchInput
  /-- Whatever the request gives. -/
  | given (resources : Value)
  /-- One payload for one key, which need not be a text. -/
  | keyed (key : Value) (payload : Record)
deriving Repr

/-- What a batch works on, once it is checked. -/
inductive BatchPlan
  | payloads (payloads : List Record)
  | changes (changes : List (Value × Record))
  | keys (keys : List Value)
deriving Repr

/-- One entity that a batch is about to write. -/
structure BatchTarget where
  entity : Entity
  /-- The attributes that the request wants to write. -/
  payload : Record := []
  /-- The attributes that were read, to find out what has changed. -/
  attributesRead : Record := []
deriving Inhabited

/-- A part of a batch that a hook can end with a response. -/
abbrev Interruptible (σ : Type) := ExceptT Value (Action σ)

namespace BatchInput

/-- The items of a list. -/
def items? : BatchInput → Option (List Value)
  | .given (.list items) => some items
  | _ => none

/-- The payloads with their keys. -/
def entries? : BatchInput → Option (List (Value × Value))
  | .given (.object members) => some (members.map fun member => (.text member.1, member.2))
  | .keyed key payload => some [(key, .object payload)]
  | .given _ => none

end BatchInput

namespace BatchPlan

/-- Adds a key, unless it is there already. A list or an object cannot be looked up. -/
def addKey (keys : List Value) (key : Value) : Except Error (List Value) :=
  if !key.isKey then .error (.plain .type)
  else .ok (if key.isIn keys then keys else keys ++ [key])

/-- Sets the changes of a key, in its place when it is there already. -/
def addChanges (changes : List (Value × Record)) (key : Value) (payload : Record) :
    Except Error (List (Value × Record)) :=
  if !key.isKey then .error (.plain .type)
  else
    .ok (if changes.any fun entry => entry.1.coincides key then
        changes.map fun entry => if entry.1.coincides key then (entry.1, payload) else entry
      else changes ++ [(key, payload)])

/-- The changes of a key. -/
def changesOf (changes : List (Value × Record)) (key : Value) : Record :=
  ((changes.find? fun entry => entry.1.coincides key).map Prod.snd).getD []

/-- Reads a list of keys. -/
def ofKeys (resource : Resource) (input : BatchInput) : Except Error BatchPlan :=
  match input.items? with
  | none => .error (.malformed (.resourcesShape .keys))
  | some items => do
      let keys ← items.foldlM (fun keys raw => do
        let key ← resource.coerceKey raw
        addKey keys key) []
      .ok (.keys keys)

/-- Checks what a batch is given. -/
def ofInput {σ : Type} (binding : Binding σ) (verb : BatchVerb) (input : BatchInput) :
    Except Error BatchPlan :=
  let resource := binding.resource
  match verb with
  | .store =>
      match input.items? with
      | none => .error (.malformed (.resourcesShape .payloads))
      | some items => do
          let payloads ← items.mapM (resource.readPayload binding.payload false)
          .ok (.payloads payloads)
  | .update =>
      match input.entries? with
      | none => .error (.malformed (.resourcesShape .payloadsByKey))
      | some entries => do
          let changes ← entries.foldlM (fun changes (rawKey, item) => do
            let key ← resource.coerceKey rawKey
            let payload ← resource.readPayload binding.updatePayload true item
            addChanges changes key payload) []
          .ok (.changes changes)
  | .destroy => ofKeys resource input
  | .restore =>
      if resource.softDeletes then ofKeys resource input else .error (.noSoftDeletes resource.name)

end BatchPlan

namespace BatchContext

/-- Whether rows are trashed rather than removed. -/
def trashes (context : BatchContext) : Bool := context.resource.softDeletes && !context.force

/-- The ability that every target needs. -/
def ability (context : BatchContext) : Ability :=
  match context.verb with
  | .store => .create
  | .update => .update
  | .destroy => if context.force && context.resource.softDeletes then .forceDelete else .delete
  | .restore => .restore

/-- The scope of trashed rows in which targets are looked for. -/
def targetScope (context : BatchContext) : TrashedScope :=
  match context.verb with
  | .store => .without
  | .update => context.parameters.trashed
  | .destroy => if context.trashes then .without else .included
  | .restore => .only

/-- The scope of trashed rows in which a written row is read back. -/
def freshScope (context : BatchContext) : TrashedScope :=
  match context.verb with
  | .update => context.parameters.trashed
  | .destroy => .included
  | _ => .without

/-- Whether a written row is read back: not one that was removed. -/
def readsBack (context : BatchContext) : Bool := !(context.verb == .destroy && !context.trashes)

/-- The context after one more entity is done. -/
def withDone (context : BatchContext) (entity : Entity) : BatchContext :=
  { context with entities := context.entities ++ [entity] }

/-- The outcome of a batch as far as it has come. -/
def outcome (context : BatchContext) (response : Option Value) : BatchOutcome :=
  ⟨context.entities, response, context.requested⟩

end BatchContext

namespace BatchTarget

/-- An entity that is to be stored. -/
def pending (context : BatchContext) (payload : Record) : BatchTarget :=
  let attributes := payload.merge context.attributes
  { entity := .ofRow context.resource.name .null attributes, payload := attributes }

/-- The values of a new row: the columns among the attributes, the key only if there is one. -/
def newValues (resource : Resource) (entity : Entity) : Record :=
  entity.attributes.filter fun entry =>
    resource.columns.contains entry.1 && (entry.1 != resource.keyName || !entry.2.isNull)

/-- The columns that differ from what was read. -/
def changedValues (target : BatchTarget) (resource : Resource) (entity : Entity) : Record :=
  entity.attributes.filter fun entry =>
    resource.columns.contains entry.1 && entry.1 != resource.keyName
      && !(target.attributesRead.get entry.1).same entry.2

/-- The entity with the attributes that the request wants to write. -/
def filled (target : BatchTarget) (verb : BatchVerb) (entity : Entity) : Entity :=
  match verb with
  | .update => entity.withAttributes (entity.attributes.merge target.payload)
  | _ => entity

end BatchTarget

/-- The steps that a batch is made of. At a step that calls hooks, a response of theirs ends the batch. -/
structure BatchSteps (σ : Type) where
  /-- Calls the hooks at a point of the batch. -/
  atBatch : BatchPoint → BatchContext → Interruptible σ Unit
  /-- Finds the entities that are to be written. -/
  targets : BatchContext → BatchPlan → Action σ (List BatchTarget)
  /-- Asks whether an entity may be written; yields it as the authorizer leaves it. -/
  authorize : BatchContext → Entity → Action σ Entity
  /-- Calls the hooks at a point of an entity; yields it as they leave it. -/
  atEntity : EntityPoint → BatchContext → Entity → Interruptible σ Entity
  /-- Writes an entity; yields its key. -/
  write : BatchContext → BatchTarget → Entity → Action σ Value
  /-- Reads a written entity back by its key. -/
  readBack : BatchContext → Entity → (key : Value) → Action σ Entity

namespace BatchSteps

variable {σ : Type}

/-- Calls the hooks at a point of a verb that writes attributes. -/
def atEntityIfSaving (steps : BatchSteps σ) (point : EntityPoint) (context : BatchContext)
    (entity : Entity) : Interruptible σ Entity :=
  if context.verb.saves then steps.atEntity point context entity else pure entity

/-- The entity to answer with after a write. A row that was removed is answered as it was. -/
def refresh (steps : BatchSteps σ) (context : BatchContext) (entity : Entity) (key : Value) :
    Action σ Entity :=
  if context.readsBack then steps.readBack context entity key else pure entity

/-- Takes one target through all steps. -/
def process (steps : BatchSteps σ) (context : BatchContext) (target : BatchTarget) :
    Interruptible σ Entity := do
  let authorized ← (steps.authorize context target.entity : Action σ Entity)
  let admitted ← steps.atEntity .beforeAction context authorized
  let complete ← steps.atEntityIfSaving .beforeSave context (target.filled context.verb admitted)
  let key ← (steps.write context target complete : Action σ Value)
  let written ← steps.atEntity .beforeFresh context complete
  let fresh ← (steps.refresh context written key : Action σ Entity)
  let saved ← steps.atEntityIfSaving .afterSave context fresh
  steps.atEntity .afterAction context saved

/-- Takes targets through all steps, one after another, until a hook responds. -/
def processAll (steps : BatchSteps σ) :
    BatchContext → List BatchTarget → Action σ (BatchContext × Option Value)
  | context, [] => pure (context, none)
  | context, target :: rest => do
      match ← (steps.process context target).run with
      | .ok entity => steps.processAll (context.withDone entity) rest
      | .error response => pure (context, some response)

/-- Ends a batch: with the response of a hook, or after the hooks that follow it. -/
def conclude (steps : BatchSteps σ) : BatchContext × Option Value → Action σ BatchOutcome
  | (context, some response) => pure (context.outcome (some response))
  | (context, none) => do
      match ← (steps.atBatch .afterBatch context).run with
      | .error response => pure (context.outcome (some response))
      | .ok () => pure (context.outcome none)

/-- The part of a batch that runs inside the transaction. -/
def execute (steps : BatchSteps σ) (context : BatchContext) (plan : BatchPlan) :
    Action σ BatchOutcome := do
  match ← (steps.atBatch .beforeBatch context).run with
  | .error response => pure (context.outcome (some response))
  | .ok () => do
      let targets ← steps.targets context plan
      let reached ← steps.processAll context targets
      steps.conclude reached

/-- Takes a transaction back; that there is none to take back does not matter. -/
def rollBackQuietly [Store σ] : Action σ Unit := do
  let _ ← (Store.rollback : Action σ Unit).attempt
  pure ()

/-- Runs a batch that has been checked, in a transaction of its own. -/
def run [Store σ] (steps : BatchSteps σ) (context : BatchContext) (plan : BatchPlan) :
    Action σ BatchOutcome := do
  Store.begin
  match ← (steps.execute context plan).attempt with
  | .ok outcome =>
      Store.commit
      pure outcome
  | .error error =>
      rollBackQuietly
      throw error

end BatchSteps

namespace Endpoint

variable {σ : Type} [Store σ]

/-- The entities of some keys, in the order of the keys. Keys that are not found are skipped. -/
def fetchTargets (endpoint : Endpoint σ) (context : BatchContext) (keys : List Value) :
    Action σ (List Entity) :=
  if keys.isEmpty then pure []
  else do
    let spec ← Action.ofExcept (QuerySpec.ofKeys context.resource { trashed := context.targetScope }
      context.requested context.scopes keys)
    let found ← Store.get endpoint.registry spec
    pure (keys.filterMap fun key => (found.filter fun entity => entity.key.coincides key).getLast?)

/-- The targets of a batch. -/
def targets (endpoint : Endpoint σ) (context : BatchContext) (plan : BatchPlan) :
    Action σ (List BatchTarget) :=
  match plan with
  | .payloads payloads => pure (payloads.map (BatchTarget.pending context))
  | .changes changes => do
      let entities ← endpoint.fetchTargets context (changes.map Prod.fst)
      pure (entities.map fun entity =>
        ⟨entity, BatchPlan.changesOf changes entity.key, entity.attributes⟩)
  | .keys keys => do
      let entities ← endpoint.fetchTargets context keys
      pure (entities.map fun entity => { entity := entity })

/-- Writes an entity; yields its key. -/
def mutate (endpoint : Endpoint σ) (context : BatchContext) (target : BatchTarget) (entity : Entity) :
    Action σ Value := do
  let resource := context.resource
  match context.verb with
  | .store => Store.insert resource (BatchTarget.newValues resource entity)
  | .update =>
      let _ ← Store.update resource entity.key (target.changedValues resource entity)
      pure entity.key
  | .destroy =>
      let _ ← if context.trashes then Store.softDelete endpoint.now resource entity.key
        else Store.delete resource entity.key
      pure entity.key
  | .restore =>
      let _ ← Store.restore resource entity.key
      pure entity.key

/-- Reads a written row back. -/
def refetch (endpoint : Endpoint σ) (context : BatchContext) (key : Value) : Action σ Entity := do
  let parameters : QueryParameters :=
    { trashed := context.freshScope, columns := context.parameters.columns,
      aggregates := context.parameters.aggregates }
  let spec ← Action.ofExcept
    (QuerySpec.ofKeys context.resource parameters context.requested [] [key])
  match ← Store.first endpoint.registry spec with
  | some entity => pure (if context.verb == .store then entity.markCreated else entity)
  | none => throw (.notFound context.resource.name key)

/-- Goes on when hooks leave a batch to proceed, and ends it with their response otherwise. -/
def proceeding {α : Type} (call : Action σ (α × HookReply)) : Interruptible σ α := do
  let (result, reply) ← (call : Action σ (α × HookReply))
  match ← (reply.response? : Action σ (Option Value)) with
  | some response => throw response
  | none => pure result

/-- The steps of the batches of an endpoint, given the hooks of their verb. -/
def steps (endpoint : Endpoint σ) (hooks : Hooks σ) : BatchSteps σ where
  atBatch point context := proceeding do
    let reply ← hooks.atBatch point context
    pure ((), reply)
  targets := endpoint.targets
  authorize context entity :=
    endpoint.binding.authorizer.checkEntity context.ability entity context.request.user
  atEntity point context entity := proceeding (hooks.atEntity point context entity)
  write := endpoint.mutate
  readBack context _ key := endpoint.refetch context key

/-- Checks a request for a batch. -/
def prepareBatch (endpoint : Endpoint σ) (verb : BatchVerb) (request : Request) (input : BatchInput) :
    Except Error (BatchContext × BatchPlan) := do
  let plan ← BatchPlan.ofInput endpoint.binding verb input
  let parameters ← endpoint.readParameters request.parameters
  let requested ← endpoint.readRelations request
  let force ← if verb == .destroy then request.flag "force" else .ok false
  .ok ({ verb, resource := endpoint.resource, request, parameters, requested, force,
         scopes := endpoint.scopes, attributes := endpoint.attributes }, plan)

/-- Runs a batch. -/
def runBatch (endpoint : Endpoint σ) (verb : BatchVerb) (request : Request) (input : BatchInput) :
    Action σ BatchOutcome := do
  let (context, plan) ← Action.ofExcept (endpoint.prepareBatch verb request input)
  (endpoint.steps (endpoint.binding.hooksFor verb)).run context plan

end Endpoint

end ResourceServer
