import ResourceServer.Schema.Model
import ResourceServer.Error

/-!
# Resources

A resource says what may be done with a model: which fields can be filtered, sorted, searched and
written, which relations lead to other resources, and which of them may be loaded or counted. A field
or relation that is not listed cannot be used.
-/

namespace ResourceServer

/-- How many entities a relation leads to, and on which side the reference is kept. -/
inductive RelationKind
  | hasMany
  | hasOne
  | belongsTo
deriving DecidableEq, Repr, Inhabited

namespace RelationKind

/-- The word for a kind of relation. -/
def word : RelationKind → String
  | .hasMany => "has_many"
  | .hasOne => "has_one"
  | .belongsTo => "belongs_to"

/-- The kind that a word names. -/
def ofWord? (word : String) : Option RelationKind :=
  [RelationKind.hasMany, .hasOne, .belongsTo].find? fun kind => kind.word == word

end RelationKind

/-- A relation from one resource to another. The foreign key is a column of the target, or of the
owner when the owner belongs to the target; it refers to the local key, by default the key of the
other side. -/
structure Relation where
  name : String
  kind : RelationKind
  target : String
  foreignKey : String
  localKey : Option String := none
deriving DecidableEq, Repr, Inhabited

/-- Everything a service knows about one resource. -/
structure Resource where
  name : String
  model : Model
  keyName : String := "id"
  filterable : List String := []
  sortable : List String := []
  searchable : List String := []
  includes : List String := []
  aggregates : List String := []
  relations : List (String × Relation) := []
  fillable : Option (List String) := none
  softDeletes : Bool := false
  deletedAtColumn : String := "deleted_at"
deriving Repr, Inhabited

namespace Relation

/-- Whether the relation leads to a list of entities. -/
def isMany (relation : Relation) : Bool := relation.kind == .hasMany

/-- The local key, unless it is missing or empty. -/
def givenLocalKey? (relation : Relation) : Option String :=
  match relation.localKey with
  | some "" => none
  | other => other

/-- The column of the owner and the column of the target whose values are equal for related rows. -/
def joiningFields (relation : Relation) (owner target : Resource) : String × String :=
  match relation.kind with
  | .belongsTo => (relation.foreignKey, relation.givenLocalKey?.getD target.keyName)
  | _ => (relation.givenLocalKey?.getD owner.keyName, relation.foreignKey)

end Relation

namespace Resource

/-- The names of the columns. -/
def columns (resource : Resource) : List String := resource.model.columnNames

/-- The fields that a payload may set. -/
def fillableFields (resource : Resource) : List String :=
  match resource.fillable with
  | some fields => fields
  | none =>
      resource.columns.filter fun name =>
        name != resource.keyName && !(resource.softDeletes && name == resource.deletedAtColumn)

/-- The relation of a name. -/
def relation (resource : Resource) (name : String) : Except Error Relation :=
  match resource.relations.lookup name with
  | some relation => .ok relation
  | none => .error (.lookup (.relation name resource.name))

/-- The fields of a payload that it may set. -/
def filterPayload (resource : Resource) (payload : Record) : Record :=
  payload.filter fun entry => resource.fillableFields.contains entry.1

/-- Whether a row is trashed. -/
def isTrashed (resource : Resource) (row : Record) : Bool :=
  resource.softDeletes && !(row.get resource.deletedAtColumn).isNull

end Resource

end ResourceServer
