import ResourceServer.Schema.Resource
import ResourceServer.Value.Description

/-!
# Described resources

A resource can be described by what distinguishes it from another one: each part of the description takes
the place of a whole field. Models are chosen by name from a given list.
-/

namespace ResourceServer

/-- The model of a name. -/
def Model.named (models : List Model) (name : String) : Except Error Model :=
  match models.find? fun model => model.name == name with
  | some model => .ok model
  | none => .error (.lookup (.column name))

namespace Relation

/-- The relation that a description gives, under its name. -/
def ofDescription (description : Value) : Except Error (String × Relation) := do
  let name := description.textPart "name"
  let kind ←
    match RelationKind.ofWord? (description.textPart "kind") with
    | some kind => .ok kind
    | none => .error (.value (.notMember (description.part "kind") "RelationKind"))
  let localKey := match description.part? "local_key" with
    | some (.text key) => some key
    | _ => none
  .ok (name, ⟨name, kind, description.textPart "target", description.textPart "foreign_key", localKey⟩)

/-- The relations without those that a later one of the same name replaces. -/
def lastOfEachName (entries : List (String × Relation)) : List (String × Relation) :=
  entries.foldl (fun kept entry =>
    if kept.any (·.1 == entry.1) then
      kept.map fun other => if other.1 == entry.1 then entry else other
    else kept ++ [entry]) []

end Relation

namespace Resource

/-- The resource with the described fields in place of its own. -/
def revised (models : List Model) (base : Resource) (description : Value) : Except Error Resource := do
  let names (field : String) (current : List String) : List String :=
    match description.part? field with
    | some _ => description.textParts field
    | none => current
  let model ←
    match description.part? "model" with
    | some name => Model.named models name.plain
    | none => .ok base.model
  let relations ←
    match description.part? "relations" with
    | some relations => (relations.items.mapM Relation.ofDescription).map Relation.lastOfEachName
    | none => .ok base.relations
  let fillable :=
    match description.part? "fillable" with
    | some .null => none
    | some _ => some (description.textParts "fillable")
    | none => base.fillable
  .ok {
    name := description.textPart "name" base.name
    model
    keyName := description.textPart "key_name" base.keyName
    filterable := names "filterable" base.filterable
    sortable := names "sortable" base.sortable
    searchable := names "searchable" base.searchable
    includes := names "includes" base.includes
    aggregates := names "aggregates" base.aggregates
    relations
    fillable
    softDeletes := description.flagPart "soft_deletes" base.softDeletes
    deletedAtColumn := description.textPart "deleted_at_column" base.deletedAtColumn }

/-- The resource that a description gives: a revised one of those that are there already, or a new one of
a model. -/
def ofDescription (models : List Model) (resources : List Resource) (description : Value) :
    Except Error Resource := do
  match description.part? "base" with
  | some base =>
      match resources.find? fun resource => resource.name == base.plain with
      | some resource => resource.revised models description
      | none => .error (.lookup (.column base.plain))
  | none => do
      let model ← Model.named models (description.textPart "model")
      Resource.revised models { name := "", model } description

end Resource

end ResourceServer
