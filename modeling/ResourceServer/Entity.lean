import ResourceServer.Report
import ResourceServer.Query

/-!
# Entities

An entity is a row as a client sees it: its attributes, and the entities that were loaded through
relations. Its key never changes.
-/

namespace ResourceServer

mutual

/-- A row with its loaded relations. -/
inductive Entity
  | mk (resource : String) (key : Value) (attributes : Record) (relations : List (String × Related))
      (created : Bool)

/-- What a relation leads to. -/
inductive Related
  | absent
  | single (entity : Entity)
  | many (entities : List Entity)

end

instance : Inhabited Entity := ⟨.mk "" .null [] [] false⟩

namespace Entity

/-- The resource of an entity. -/
def resource : Entity → String
  | .mk resource _ _ _ _ => resource

/-- The key of an entity. -/
def key : Entity → Value
  | .mk _ key _ _ _ => key

/-- The attributes of an entity. -/
def attributes : Entity → Record
  | .mk _ _ attributes _ _ => attributes

/-- The loaded relations of an entity. -/
def relations : Entity → List (String × Related)
  | .mk _ _ _ relations _ => relations

/-- Whether the entity was created by the batch that returned it. -/
def wasRecentlyCreated : Entity → Bool
  | .mk _ _ _ _ created => created

/-- A row without loaded relations. -/
def ofRow (resource : String) (key : Value) (attributes : Record) : Entity :=
  .mk resource key attributes [] false

/-- The entity with other attributes. -/
def withAttributes (attributes : Record) : Entity → Entity
  | .mk resource key _ relations created => .mk resource key attributes relations created

/-- The entity with other relations. -/
def withRelations (relations : List (String × Related)) : Entity → Entity
  | .mk resource key attributes _ created => .mk resource key attributes relations created

/-- The entity marked as newly created. -/
def markCreated : Entity → Entity
  | .mk resource key attributes relations _ => .mk resource key attributes relations true

/-- The value of an attribute, null when it is missing. -/
def get (entity : Entity) (name : String) : Value := entity.attributes.get name

/-- Attaches a relation: in its place when it is there already, else at the end. -/
def attach (entity : Entity) (name : String) (related : Related) : Entity :=
  let relations := entity.relations
  entity.withRelations
    (if relations.any (·.1 == name) then
      relations.map fun entry => if entry.1 == name then (name, related) else entry
    else relations ++ [(name, related)])

end Entity

mutual

/-- The paths of all loaded relations of an entity, each one below the given beginning. -/
def Entity.loadedPaths (beginning : String) : Entity → List String
  | .mk _ _ _ relations _ => relationPaths beginning relations

/-- The paths of the listed relations and of all that is loaded below them. -/
def relationPaths (beginning : String) : List (String × Related) → List String
  | [] => []
  | (name, related) :: rest =>
      (beginning ++ name) :: (related.loadedPaths (beginning ++ name ++ ".")
        ++ relationPaths beginning rest)

/-- The paths below a relation. -/
def Related.loadedPaths (beginning : String) : Related → List String
  | .absent => []
  | .single entity => entity.loadedPaths beginning
  | .many entities => entityPaths beginning entities

/-- The paths below each entity of a list. -/
def entityPaths (beginning : String) : List Entity → List String
  | [] => []
  | entity :: rest => entity.loadedPaths beginning ++ entityPaths beginning rest

end

mutual

/-- An entity as an object: its attributes, and its relations written over them. -/
def Entity.toRecord : Entity → Record
  | .mk _ _ attributes relations _ => attributes.merge (relationRecord relations)

/-- The relations of an entity as an object. -/
def relationRecord : List (String × Related) → Record
  | [] => []
  | (name, related) :: rest => (name, related.toValue) :: relationRecord rest

/-- What a relation leads to, as a value. -/
def Related.toValue : Related → Value
  | .absent => .null
  | .single entity => .object entity.toRecord
  | .many entities => .list (entityValues entities)

/-- Entities as values. -/
def entityValues : List Entity → List Value
  | [] => []
  | entity :: rest => .object entity.toRecord :: entityValues rest

end

/-- Checks the parts of an entity that is put together by hand. -/
def Entity.ofParts (resource key attributes : Value) (relations : List (String × Related)) :
    Except Error Entity :=
  let resourceReports := match resource with
    | .text _ => []
    | other => [(Report.notText other).within [.name "resource"]]
  let attributeReports := match attributes with
    | .object _ => []
    | other =>
        [(⟨"dict_type", [.name "attributes"], "Input should be a valid dictionary", other⟩ : Report)]
  match resource, attributes with
  | .text resource, .object attributes => .ok (.mk resource key attributes relations false)
  | _, _ => .error (.validation (resourceReports ++ attributeReports))

/-- The report on an attempt to change a key. -/
def Entity.frozenKey : Error :=
  .validation [⟨"frozen_field", [.name "key"], "Field is frozen", .null⟩]

end ResourceServer
