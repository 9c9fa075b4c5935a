import ResourceServer.Entity
import ResourceServer.Query.Parameters
import ResourceServer.Request

/-!
# Relations to load

A request asks for relations by their paths, plainly or with conditions on the related entities. A path
has to be allowed by a pattern of the resource and to lead from relation to relation. Before an answer
is written, every loaded relation that was not asked for is taken out of it.
-/

namespace ResourceServer

/-- Whether a text continues a given beginning. -/
def continues (beginning text : String) : Bool := beginning.toList.isPrefixOf text.toList

namespace Resource

/-- Whether an include pattern allows a path. A star allows everything, a final wildcard everything
below the path before it, and every pattern allows the paths on the way to it. -/
def patternAllows (pattern path : String) : Bool :=
  let concrete := Registry.concretePath pattern
  let isWildcard := concrete != pattern
  pattern == "*" || pattern == path
    || (isWildcard && (path == concrete || continues (concrete ++ ".") path))
    || continues (path ++ ".") concrete

/-- Whether some include pattern allows a path. -/
def allowsPath (resource : Resource) (path : String) : Bool :=
  resource.includes.any fun pattern => patternAllows pattern path

/-- The resource at the end of a path that may be loaded. -/
def includeTarget (registry : Registry) (settings : Settings) (resource : Resource) (path : String) :
    Except Error Resource :=
  let depth := (pathSegments path).length - 1
  if settings.maxNestedDepth < depth then
    .error (.nestingLimit .relations depth settings.maxNestedDepth)
  else if !resource.allowsPath path then .error (.relationNotAllowed path resource.name)
  else
    match registry.resolvePath resource path with
    | .error _ => .error (.relationNotAllowed path resource.name)
    | .ok hops =>
        match hops.getLast? with
        | some hop => .ok hop.target
        | none => .error (.relationNotAllowed path resource.name)

end Resource

/-- Reads the page of related entities that an entry asks for. -/
def RelationWindow.ofEntry (path : String) (entry : Record) : Except Error (Option RelationWindow) := do
  match entry.get "limit" with
  | .null => .ok none
  | limit => do
      let limit ← Parameter.integer (path ++ ".limit") 1 limit
      let page ← Parameter.integer (path ++ ".page") 1 ((entry.get? "page").getD (.int 1))
      .ok (some ⟨limit, page⟩)

namespace RelationRequest

/-- Reads an entry that names a relation, possibly with conditions. -/
def ofEntry (registry : Registry) (settings : Settings) (resource : Resource) (entry : Value) :
    Except Error RelationRequest :=
  match entry with
  | .object members =>
      match Record.get members "relation" with
      | .text path => do
          let target ← resource.includeTarget registry settings path
          let window ← RelationWindow.ofEntry path members
          let filters ← Filter.Node.ofRequest settings target (Record.get members "filters")
          let sort ← SortDirective.ofValue target (Record.get members "sort")
          .ok { path, filters, sort, window }
      | _ => .error (.malformed (.includeEntry entry))
  | _ => .error (.malformed (.includeEntry entry))

/-- Reads a plain path. -/
def ofPath (registry : Registry) (settings : Settings) (resource : Resource) (path : String) :
    Except Error RelationRequest := do
  let _ ← resource.includeTarget registry settings path
  .ok { path := path }

/-- All relations that a request asks for, by path: the paths in `include` and the entries in the
body's `includes`. -/
def ofRequest (registry : Registry) (settings : Settings) (resource : Resource) (request : Request) :
    Except Error (List RelationRequest) := do
  let paths ← Parameter.words "include" (request.input "include")
  let plain ← paths.mapM (ofPath registry settings resource)
  let detailed ←
    match request.body.get "includes" with
    | .null => .ok []
    | .list entries => entries.mapM (ofEntry registry settings resource)
    | _ => .error (.malformed .includesShape)
  .ok (mergeRequests (plain ++ detailed))

/-- The paths from the first relation up to each relation of a request. -/
def ancestorPaths (request : RelationRequest) : List String :=
  (List.range request.segments.length).map fun position =>
    joinSegments (request.segments.take (position + 1))

end RelationRequest

/-- All paths that requests allow in an answer: theirs and those on the way to them. -/
def allowedPaths (requests : List RelationRequest) : List String :=
  requests.flatMap RelationRequest.ancestorPaths

mutual

/-- An entity without the loaded relations that are not allowed. Paths are taken below the given
beginning. -/
def Entity.restrictTo (allowed : List String) (beginning : String) : Entity → Entity
  | .mk resource key attributes relations created =>
      .mk resource key attributes (restrictRelations allowed beginning relations) created

/-- The loaded relations that are allowed. -/
def restrictRelations (allowed : List String) (beginning : String) :
    List (String × Related) → List (String × Related)
  | [] => []
  | (name, related) :: rest =>
      if allowed.contains (beginning ++ name) then
        (name, related.restrictTo allowed (beginning ++ name ++ "."))
          :: restrictRelations allowed beginning rest
      else restrictRelations allowed beginning rest

/-- What a relation leads to, each entity restricted. -/
def Related.restrictTo (allowed : List String) (beginning : String) : Related → Related
  | .absent => .absent
  | .single entity => .single (entity.restrictTo allowed beginning)
  | .many entities => .many (restrictEntities allowed beginning entities)

/-- Entities, each one restricted. -/
def restrictEntities (allowed : List String) (beginning : String) : List Entity → List Entity
  | [] => []
  | entity :: rest => entity.restrictTo allowed beginning :: restrictEntities allowed beginning rest

end

/-- An entity with those loaded relations only that were asked for. -/
def Entity.guarded (requests : List RelationRequest) (entity : Entity) : Entity :=
  entity.restrictTo (allowedPaths requests) ""

/-- The entities of a collection with those loaded relations only that were asked for. -/
def guardEntities (requests : List RelationRequest) (entities : List Entity) : List Entity :=
  restrictEntities (allowedPaths requests) "" entities

end ResourceServer
