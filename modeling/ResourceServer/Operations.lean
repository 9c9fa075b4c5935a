import ResourceServer.Batch
import ResourceServer.Envelope

/-!
# Operations of an endpoint

The standard operations on a resource: listing, searching, showing one entity, and storing, updating,
destroying and restoring one or several of them. Operations on one entity are batches of one.
-/

namespace ResourceServer.Endpoint

variable {σ : Type} [Store σ]

/-! ## Reading -/

/-- Asks whether the user of a request may list the resource. -/
def authorizeListing (endpoint : Endpoint σ) (request : Request) : Action σ Unit := do
  let _ ← endpoint.binding.authorizer .viewAny (.value (.text endpoint.name)) request.user
  pure ()

/-- Answers a listing: one page, or everything when pagination is disabled. -/
def collection (endpoint : Endpoint σ) (request : Request) (parameters : QueryParameters) :
    Action σ Answer := do
  let requested ← Action.ofExcept (endpoint.readRelations request)
  let spec ← Action.ofExcept
    (QuerySpec.ofParameters endpoint.resource parameters requested endpoint.scopes)
  if parameters.pagination.disabled then
    let entities ← Store.get endpoint.registry spec
    pure (.envelope (.ofEntities requested entities))
  else
    let page ← Store.paginate endpoint.registry spec parameters.pagination.page
      parameters.pagination.limit
    let envelope ← Action.ofExcept (Envelope.ofPage requested request.path page)
    pure (.envelope envelope)

/-- Lists entities as the query says. -/
def index (endpoint : Endpoint σ) (request : Request) : Action σ Answer := do
  endpoint.authorizeListing request
  let parameters ← Action.ofExcept (endpoint.readParameters request.query)
  endpoint.collection request parameters

/-- Lists entities as the query and the body say. -/
def search (endpoint : Endpoint σ) (request : Request) : Action σ Answer := do
  endpoint.authorizeListing request
  let parameters ← Action.ofExcept (endpoint.readParameters request.parameters)
  endpoint.collection request parameters

/-- Shows one entity. -/
def view (endpoint : Endpoint σ) (request : Request) (key : Value) : Action σ Answer := do
  let resource := endpoint.resource
  let key ← Action.ofExcept (resource.coerceKey key)
  let columns ← Action.ofExcept (readColumns resource request.query)
  let aggregates ← Action.ofExcept (readAggregates resource request.query)
  let trashed ← Action.ofExcept (TrashedScope.ofRequest resource request.query)
  let requested ← Action.ofExcept (endpoint.readRelations request)
  let spec ← Action.ofExcept
    (QuerySpec.ofKeys resource { columns, aggregates, trashed } requested endpoint.scopes [key])
  match ← Store.first endpoint.registry spec with
  | none => throw (.notFound endpoint.name key)
  | some entity => do
      let entity ← endpoint.binding.authorizer.checkEntity .view entity request.user
      pure (.envelope (.ofEntity requested entity))

/-! ## Writing -/

/-- Refuses to store through an endpoint that does not allow it. -/
def checkStore (endpoint : Endpoint σ) : Action σ Unit :=
  if endpoint.storeAllowed then pure () else throw (.storeThroughRelation endpoint.name)

/-- The answer to a batch of one. -/
def answerSingle (endpoint : Endpoint σ) (key : Value) (outcome : BatchOutcome) : Action σ Answer :=
  match outcome.response, outcome.entities with
  | some response, _ => pure (.response response)
  | none, entity :: _ => pure (.envelope (.ofEntity outcome.requested entity))
  | none, [] => throw (.notFound endpoint.name key)

/-- The answer to a batch. -/
def answerMany (outcome : BatchOutcome) : Answer :=
  match outcome.response with
  | some response => .response response
  | none => .envelope (.ofEntities outcome.requested outcome.entities)

/-- Stores one entity. -/
def store (endpoint : Endpoint σ) (request : Request) : Action σ Answer := do
  endpoint.checkStore
  let outcome ← endpoint.runBatch .store request (.given (.list [.object request.body]))
  endpoint.answerSingle .null outcome

/-- Updates one entity. -/
def update (endpoint : Endpoint σ) (request : Request) (key : Value) : Action σ Answer := do
  if !key.isKey then throw (.plain .type)
  else
    let outcome ← endpoint.runBatch .update request (.keyed key request.body)
    endpoint.answerSingle key outcome

/-- Destroys one entity. -/
def destroy (endpoint : Endpoint σ) (request : Request) (key : Value) : Action σ Answer := do
  let outcome ← endpoint.runBatch .destroy request (.given (.list [key]))
  endpoint.answerSingle key outcome

/-- Restores one entity. -/
def restore (endpoint : Endpoint σ) (request : Request) (key : Value) : Action σ Answer := do
  let outcome ← endpoint.runBatch .restore request (.given (.list [key]))
  endpoint.answerSingle key outcome

/-- The resources that a request names in its body. -/
def resourcesOf (request : Request) : BatchInput := .given (request.body.get "resources")

/-- Stores several entities. -/
def batchStore (endpoint : Endpoint σ) (request : Request) : Action σ Answer := do
  endpoint.checkStore
  let outcome ← endpoint.runBatch .store request (resourcesOf request)
  pure (answerMany outcome)

/-- Updates, destroys or restores several entities. -/
def batch (endpoint : Endpoint σ) (verb : BatchVerb) (request : Request) : Action σ Answer := do
  let outcome ← endpoint.runBatch verb request (resourcesOf request)
  pure (answerMany outcome)

end ResourceServer.Endpoint

namespace ResourceServer

/-- The standard operations. -/
inductive Operation
  | index
  | search
  | view (key : Value)
  | store
  | update (key : Value)
  | destroy (key : Value)
  | restore (key : Value)
  | batch (verb : BatchVerb)
deriving Repr, Inhabited

/-- Performs an operation at an endpoint. -/
def Operation.perform {σ : Type} [Store σ] (operation : Operation) (endpoint : Endpoint σ)
    (request : Request) : Action σ Answer :=
  match operation with
  | .index => endpoint.index request
  | .search => endpoint.search request
  | .view key => endpoint.view request key
  | .store => endpoint.store request
  | .update key => endpoint.update request key
  | .destroy key => endpoint.destroy request key
  | .restore key => endpoint.restore request key
  | .batch .store => endpoint.batchStore request
  | .batch verb => endpoint.batch verb request

end ResourceServer

namespace ResourceServer

variable {σ : Type}

/-- A relation that is served below each entity of its owner. -/
structure RelationEndpoint (σ : Type) where
  registry : Registry
  settings : Settings := {}
  now : Moment
  parent : Binding σ
  relation : Relation
  child : Binding σ

namespace RelationEndpoint

/-- Serves a relation of a bound resource. -/
def make (catalog : Catalog σ) (settings : Settings) (now : Moment) (parent relation : String) :
    Except Error (RelationEndpoint σ) := do
  let parentBinding ← catalog.binding parent
  let relation ← parentBinding.resource.relation relation
  let child ← catalog.binding relation.target
  .ok { registry := catalog.registry, settings, now, parent := parentBinding, relation, child }

/-- The name of the endpoint. -/
def name (endpoint : RelationEndpoint σ) : String :=
  endpoint.parent.name ++ "." ++ endpoint.relation.name

/-- The filter that related rows satisfy, given the joining value of the parent. -/
def scopeFor (field : String) (value : Value) : Except Error Filter.Leaf :=
  if value.isNull then Filter.Leaf.make field .isIn (.list []) else Filter.Leaf.make field .eq value

/-- The endpoint for what is related to one parent. -/
def forParent [Store σ] (endpoint : RelationEndpoint σ) (parentKey : Value) :
    Action σ (Endpoint σ) := do
  let parent := endpoint.parent.resource
  let key ← Action.ofExcept (parent.coerceKey parentKey)
  let spec ← Action.ofExcept (({ resource := parent } : QuerySpec).whereIn parent.keyName [key])
  match ← Store.first endpoint.registry spec with
  | none => throw (.notFound parent.name key)
  | some entity => do
      let (ownerField, targetField) := endpoint.relation.joiningFields parent endpoint.child.resource
      let value := entity.get ownerField
      let scope ← Action.ofExcept (scopeFor targetField value)
      let belongsTo := endpoint.relation.kind == .belongsTo
      pure {
        registry := endpoint.registry
        settings := endpoint.settings
        now := endpoint.now
        binding := endpoint.child
        scopes := [.leaf scope]
        attributes := if belongsTo then [] else [(targetField, value)]
        storeAllowed := !belongsTo }

end RelationEndpoint

/-- The endpoint of a bound resource. -/
def Catalog.endpoint (catalog : Catalog σ) (settings : Settings) (now : Moment) (name : String) :
    Except Error (Endpoint σ) := do
  let binding ← catalog.binding name
  .ok { registry := catalog.registry, settings, now, binding }

end ResourceServer
