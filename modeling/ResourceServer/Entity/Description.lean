import ResourceServer.Entity
import ResourceServer.Value.Description

/-!
# Described entities

An entity can be described by its resource, its key, its attributes and its relations. A relation is
described by null, by an entity or by a list of entities.
-/

namespace ResourceServer

/-- The entity with the described resource, key and attributes. -/
def Entity.ofDescribedParts (members : Record) (relations : List (String × Related)) :
    Except Error Entity :=
  Entity.ofParts ((members.get? "resource").getD (.text "things")) (members.get "key")
    ((members.get? "attributes").getD (.object [])) relations

mutual

/-- What a description says that a relation leads to. -/
def Related.ofDescription : Value → Except Error Related
  | .null => .ok .absent
  | .list items => (entitiesOf items).map .many
  | .object members => do
      let relations ← describedRelations members
      let entity ← Entity.ofDescribedParts members relations
      .ok (.single entity)
  | _ => (Entity.ofDescribedParts [] []).map .single

/-- The relations among the members of a description. -/
def describedRelations : List (String × Value) → Except Error (List (String × Related))
  | [] => .ok []
  | ("relations", .object relations) :: _ => relatedOf relations
  | _ :: rest => describedRelations rest

/-- The relations of a description, by name. -/
def relatedOf : List (String × Value) → Except Error (List (String × Related))
  | [] => .ok []
  | (name, description) :: rest => do
      let related ← Related.ofDescription description
      let others ← relatedOf rest
      .ok ((name, related) :: others)

/-- The entities of a list of descriptions. -/
def entitiesOf : List Value → Except Error (List Entity)
  | [] => .ok []
  | .object members :: rest => do
      let relations ← describedRelations members
      let entity ← Entity.ofDescribedParts members relations
      let entities ← entitiesOf rest
      .ok (entity :: entities)
  | _ :: rest => do
      let entity ← Entity.ofDescribedParts [] []
      let entities ← entitiesOf rest
      .ok (entity :: entities)

end

/-- The entity that a description gives. -/
def Entity.ofDescription (description : Value) : Except Error Entity := do
  let relations ← describedRelations description.members
  Entity.ofDescribedParts description.members relations

end ResourceServer
