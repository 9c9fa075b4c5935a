import ResourceServer.Schema.Resource

/-!
# Registry of resources

The registry holds the resources of a service by name, in the order of their registration. `validate`
checks every resource against its model and the other resources and reports the first inconsistency.
-/

namespace ResourceServer

/-- The resources of a service. -/
structure Registry where
  resources : List Resource := []
deriving Repr, Inhabited

namespace Registry

/-- The resource of a name. -/
def find? (registry : Registry) (name : String) : Option Resource :=
  registry.resources.find? fun resource => resource.name == name

/-- Whether a name is registered. -/
def contains (registry : Registry) (name : String) : Bool := (registry.find? name).isSome

/-- The names of the resources. -/
def names (registry : Registry) : List String := registry.resources.map Resource.name

/-- The resource of a name, which must be registered. -/
def resource (registry : Registry) (name : String) : Except Error Resource :=
  match registry.find? name with
  | some resource => .ok resource
  | none => .error (.configuration (.unknownResource name))

/-- Adds a resource under a new name. -/
def register (registry : Registry) (resource : Resource) : Except Error Registry :=
  if registry.contains resource.name then
    .error (.configuration (.alreadyRegistered resource.name))
  else .ok ⟨registry.resources ++ [resource]⟩

/-- Registers resources one after another. -/
def ofList (resources : List Resource) : Except Error Registry :=
  resources.foldlM register {}

end Registry

/-- Cuts a text at every occurrence of a separator. -/
def splitAtEvery (separator : Char) : List Char → List (List Char)
  | [] => [[]]
  | character :: rest =>
      match splitAtEvery separator rest with
      | [] => [[character]]
      | segment :: segments =>
          if character = separator then [] :: segment :: segments
          else (character :: segment) :: segments

/-- The segments of a relation path. -/
def pathSegments (path : String) : List String :=
  (splitAtEvery '.' path.toList).map String.ofList

/-- Joins segments to a relation path. -/
def joinSegments (segments : List String) : String := String.intercalate "." segments

/-- One step along a relation path: the relation and the resource it leads to. -/
structure Hop where
  relation : Relation
  target : Resource
deriving Repr

namespace Registry

/-- Follows relation names from a resource on. -/
def follow (registry : Registry) (resource : Resource) : List String → Except LookupFault (List Hop)
  | [] => .ok []
  | segment :: rest =>
      match resource.relations.lookup segment with
      | none => .error (.relation segment resource.name)
      | some relation =>
          match registry.find? relation.target with
          | none => .error (.relationTarget relation.target)
          | some target => do
              let hops ← registry.follow target rest
              .ok (⟨relation, target⟩ :: hops)

/-- Follows a relation path from a resource on. -/
def resolvePath (registry : Registry) (resource : Resource) (path : String) :
    Except LookupFault (List Hop) :=
  registry.follow resource (pathSegments path)

/-- The path that an include pattern starts from: the pattern without a final wildcard. -/
def concretePath (pattern : String) : String :=
  let characters := pattern.toList
  if characters.reverse.take 2 = ['*', '.'] then
    String.ofList (characters.take (characters.length - 2))
  else pattern

/-- The first list of fields that names something else than a column. -/
def unknownFieldsFault? (resource : Resource) : Option ConfigFault :=
  let lists := [(Usage.filterable, resource.filterable), (.sortable, resource.sortable),
    (.searchable, resource.searchable), (.fillable, resource.fillable.getD [])]
  lists.findSome? fun (usage, fields) =>
    match fields.filter fun field => !resource.columns.contains field with
    | [] => none
    | unknown => some (.unknownFields usage resource.name unknown)

/-- What is wrong with a relation of a resource. -/
def relationFault? (registry : Registry) (resource : Resource) (relation : Relation) :
    Option ConfigFault :=
  match registry.find? relation.target with
  | none => some (.unknownTarget resource.name relation.name relation.target)
  | some target =>
      let owner := match relation.kind with
        | .belongsTo => resource
        | _ => target
      if owner.columns.contains relation.foreignKey then none
      else some (.missingForeignKey relation.foreignKey resource.name relation.name owner.name)

/-- What is wrong with an include pattern of a resource. -/
def includeFault? (registry : Registry) (resource : Resource) (pattern : String) : Option ConfigFault :=
  if pattern = "*" then none
  else
    match registry.resolvePath resource (concretePath pattern) with
    | .ok _ => none
    | .error cause => some (.unresolvedInclude pattern resource.name cause)

/-- The first thing that is wrong with a resource. -/
def fault? (registry : Registry) (resource : Resource) : Option ConfigFault :=
  if !resource.columns.contains resource.keyName then
    some (.missingKeyColumn resource.keyName resource.name)
  else if resource.softDeletes && !resource.columns.contains resource.deletedAtColumn then
    some (.missingSoftDeleteColumn resource.deletedAtColumn resource.name)
  else
    (unknownFieldsFault? resource)
    <|> (resource.relations.findSome? fun entry => registry.relationFault? resource entry.2)
    <|> (resource.includes.findSome? (registry.includeFault? resource))
    <|> ((resource.aggregates.find? fun name => !(resource.relations.any (·.1 == name))).map
          fun name => .undeclaredAggregate name resource.name)

/-- Checks every resource. -/
def validate (registry : Registry) : Except Error Unit :=
  match registry.resources.findSome? registry.fault? with
  | none => .ok ()
  | some fault => .error (.configuration fault)

end Registry

end ResourceServer
