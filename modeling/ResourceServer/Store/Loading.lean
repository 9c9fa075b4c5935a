import ResourceServer.Store

/-!
# Loading entities

Rows become entities, and the relations that a specification asks for are attached to them. One query per
relation serves all entities at once: it fetches the related rows of any of them, and each entity gets
those that match its own joining value. A relation to one entity takes the first match, a relation to many
takes all of them or the window that was asked for.
-/

namespace ResourceServer

/-- What is to be loaded through one relation: conditions on the related entities, and what is to be
loaded below them. -/
structure RelationStep where
  name : String
  request : RelationRequest
  below : List RelationRequest
deriving Inhabited

namespace RelationStep

/-- The part of a path before its first dot. -/
def head (path : String) : String := (pathSegments path).headD ""

/-- The part of a path after its first dot. -/
def tail (path : String) : String := joinSegments ((pathSegments path).drop 1)

/-- The requests below a relation, seen from its target. -/
def belowRequests (name : String) (requests : List RelationRequest) : List RelationRequest :=
  (requests.filter fun request => head request.path == name && !(tail request.path).isEmpty).map
    fun request => { request with path := tail request.path }

/-- The request for a relation itself: the last one given, or a plain one. -/
def directRequest (name : String) (requests : List RelationRequest) : RelationRequest :=
  ((requests.filter fun request => head request.path == name && (tail request.path).isEmpty).getLast?).getD
    { path := name }

/-- Sorts requests by the relation that their paths start with. -/
def ofRequests (requests : List RelationRequest) : List RelationStep :=
  (distinctNames (requests.map fun request => head request.path)).map fun name =>
    ⟨name, directRequest name requests, belowRequests name requests⟩

end RelationStep

/-- The counts that related entities are sorted by. -/
def sortAggregates (target : Resource) (request : RelationRequest) : List AggregateRequest :=
  (target.aggregates.map AggregateRequest.mk).filter fun aggregate =>
    request.sort.any (·.field == aggregate.alias)

/-- The query for the entities related to any of the given joining values. -/
def relatedQuery (target : Resource) (field : String) (values : List Value) (request : RelationRequest)
    (below : List RelationRequest) : Except Error QuerySpec := do
  let spec ← ({ resource := target } : QuerySpec).whereIn field values
  let filtered := request.filters.toList.foldl QuerySpec.whereNode (spec.withRelations below)
  .ok ((filtered.orderBy request.sort).withAggregates (sortAggregates target request))

/-- The different joining values of entities, null left out. -/
def joiningValues (field : String) (entities : List Entity) : List Value :=
  Value.distinct ((entities.map fun entity => entity.get field).filter fun value => !value.isNull)

/-- The related entities that match a joining value. -/
def matchesOf (field : String) (value : Value) (related : List Entity) : List Entity :=
  if value.isNull then [] else related.filter fun entity => (entity.get field).coincides value

/-- What a relation leads to when these are the matches. -/
def Relation.related (relation : Relation) (window : Option RelationWindow) (found : List Entity) :
    Related :=
  if relation.isMany then
    match window with
    | some window => .many (window.apply found)
    | none => .many found
  else
    match found with
    | first :: _ => .single first
    | [] => .absent

namespace Store

variable {σ : Type} [Store σ]

/-- Loads one relation of all given entities, given how to run the query for the related ones. -/
def loadRelation (getRelated : QuerySpec → Action σ (List Entity)) (registry : Registry)
    (owner : Resource) (entities : List Entity) (step : RelationStep) : Action σ (List Entity) := do
  let relation ← Action.ofExcept (owner.relation step.request.path)
  let target ← Action.ofExcept (registry.resource relation.target)
  let (ownerField, targetField) := relation.joiningFields owner target
  let values := joiningValues ownerField entities
  let related ←
    if values.isEmpty then pure []
    else do
      let spec ← Action.ofExcept (relatedQuery target targetField values step.request step.below)
      getRelated spec
  pure (entities.map fun entity =>
    entity.attach relation.name
      (relation.related step.request.window (matchesOf targetField (entity.get ownerField) related)))

/-- The entity of a row. -/
def entityOf (resource : Resource) (row : Record) : Entity :=
  .ofRow resource.name (row.get resource.keyName) row

/-- Makes entities of rows. The key column has to be among the columns of each row. -/
def entitiesOf (resource : Resource) (rows : List Record) : Except Error (List Entity) :=
  if rows.any fun row => !row.has resource.keyName then .error (.lookup (.column resource.keyName))
  else .ok (rows.map (entityOf resource))

/-- Makes entities of rows and loads relations up to a depth. -/
def hydrateTo (registry : Registry) : (depth : Nat) → QuerySpec → List Record → Action σ (List Entity)
  | 0, spec, rows => Action.ofExcept (entitiesOf spec.resource rows)
  | depth + 1, spec, rows => do
      let entities ← Action.ofExcept (entitiesOf spec.resource rows)
      if entities.isEmpty then pure entities
      else
        let getRelated (spec : QuerySpec) : Action σ (List Entity) := do
          let rows ← fetchRows registry spec none none
          hydrateTo registry depth spec rows
        (RelationStep.ofRequests spec.includes).foldlM
          (loadRelation getRelated registry spec.resource) entities

/-- The greatest number of steps in the paths of a specification. -/
def includeDepth (spec : QuerySpec) : Nat :=
  (spec.includes.map fun request => request.segments.length).foldl max 0

/-- Makes entities of rows and loads the relations that a specification asks for. -/
def hydrate (registry : Registry) (spec : QuerySpec) (rows : List Record) : Action σ (List Entity) :=
  hydrateTo registry (includeDepth spec) spec rows

/-- The entities that match a specification. -/
def get (registry : Registry) (spec : QuerySpec) : Action σ (List Entity) := do
  let rows ← fetchRows registry spec none none
  hydrate registry spec rows

/-- The first entity that matches a specification. -/
def first (registry : Registry) (spec : QuerySpec) : Action σ (Option Entity) := do
  let rows ← fetchRows registry spec none (some 1)
  let entities ← hydrate registry spec rows
  pure entities.head?

/-- One page of the entities that match a specification; pages are counted from one. -/
def paginate (registry : Registry) (spec : QuerySpec) (page perPage : Int) : Action σ Page := do
  let total ← count registry spec
  let rows ← fetchRows registry spec (some ((page - 1) * perPage)) (some perPage)
  let items ← hydrate registry spec rows
  pure ⟨items, total, page, perPage⟩

end Store

end ResourceServer
