import ResourceServer.Http.Pattern
import ResourceServer.Operations

/-!
# Routes

Every resource is served by the same table of routes below its own path, and so is a relation below the
path of each of its parents. Routes of batches come before those of single entities, so that the word for
batches is never taken for a key. In front of all routes stand the places of the descriptions of the
application.
-/

namespace ResourceServer.Http

/-- An entry of the table of routes. -/
structure RouteForm where
  methods : List String
  pattern : PathPattern
  operation : (key : Value) → Operation
  status : Nat := 200
  readsBody : Bool := false

namespace RouteForm

/-- The parameter for the key of an entity. -/
def key : PathPart := .parameter "key"

/-- The parameter for the key of the parent of a relation. -/
def parentKey : PathPart := .parameter "parent_key"

/-- The table of routes, relative to the path of a resource or relation. -/
def table : List RouteForm :=
  let batch : PathPattern := [.literal "/batch"]
  let single : PathPattern := [.literal "/", key]
  let restore : PathPattern := [.literal "/restore"]
  [{ methods := ["GET"], pattern := [], operation := fun _ => .index },
    { methods := ["POST"], pattern := [.literal "/search"], operation := fun _ => .search, readsBody := true },
    { methods := ["POST"], pattern := [], operation := fun _ => .store, status := 201, readsBody := true },
    { methods := ["POST"], pattern := batch, operation := fun _ => .batch .store, status := 201,
      readsBody := true },
    { methods := ["PATCH"], pattern := batch, operation := fun _ => .batch .update, readsBody := true },
    { methods := ["DELETE"], pattern := batch, operation := fun _ => .batch .destroy, readsBody := true },
    { methods := ["POST"], pattern := batch ++ restore, operation := fun _ => .batch .restore,
      readsBody := true },
    { methods := ["GET"], pattern := single, operation := .view },
    { methods := ["PATCH", "PUT"], pattern := single, operation := .update, readsBody := true },
    { methods := ["DELETE"], pattern := single, operation := .destroy },
    { methods := ["POST"], pattern := single ++ restore, operation := .restore }]

end RouteForm

/-- A route: an entry of the table below a path, and the endpoint that serves it, given the key of the
parent. The path in front may be written in a way that no pattern has. -/
structure Route (σ : Type) where
  form : RouteForm
  base : Except PatternFault PathPattern
  endpoint : (parentKey : String) → Action σ (Endpoint σ)

namespace Route

variable {σ : Type}

/-- The pattern of the paths that the route serves. -/
def pattern (route : Route σ) : Except PatternFault PathPattern := do
  let base ← route.base
  (base ++ route.form.pattern).checked

/-- Whether the route serves a method. -/
def serves (route : Route σ) (method : String) : Bool := route.form.methods.contains method

/-- The routes of an endpoint below a path. -/
def below (base : Except PatternFault PathPattern) (endpoint : String → Action σ (Endpoint σ)) :
    List (Route σ) :=
  RouteForm.table.map fun form => { form, base, endpoint }

end Route

/-! ## Dispatch -/

/-- The places of the descriptions of an application. -/
def descriptionPaths : List String := ["/openapi.json", "/docs", "/docs/oauth2-redirect", "/redoc"]

/-- Whether a description stands at a path. -/
def isDescription (path : String) : Bool :=
  descriptionPaths.any fun place => (PathPattern.capture? [.literal place] path.toList).isSome

/-- What becomes of a request. -/
inductive Dispatch (σ : Type)
  | found (route : Route σ) (capture : Capture)
  | description
  | methodNotAllowed
  | redirect
  | missing
  /-- The pattern of a route cannot be used. -/
  | unusable (fault : PatternFault)

namespace Dispatch

variable {σ : Type}

/-- The routes that a path belongs to, whatever the method. -/
def candidates (routes : List (Route σ)) (path : String) : Except PatternFault (List (Route σ × Capture)) := do
  let captures ← routes.mapM fun route => do
    let pattern ← route.pattern
    pure ((pattern.capture? path.toList).map fun capture => (route, capture))
  pure (captures.filterMap id)

/-- A path without the slashes at its end. -/
def withoutSlashes (path : String) : String :=
  String.ofList ((path.toList.reverse.dropWhile (· == '/')).reverse)

/-- Whether something is served at a path. -/
def isServed (routes : List (Route σ)) (path : String) : Bool :=
  isDescription path || (match candidates routes path with
    | .ok candidates => !candidates.isEmpty
    | .error _ => false)

/-- Whether something would be served at a path without the slashes at its end. -/
def needsRedirect (routes : List (Route σ)) (path : String) : Bool :=
  path != "/" && path.toList.getLast? == some '/' && isServed routes (withoutSlashes path)

/-- Decides by method and path. Descriptions come first, then the first route that serves both. -/
def decide (routes : List (Route σ)) (method path : String) : Dispatch σ :=
  if isDescription path && ["GET", "HEAD"].contains method then .description
  else
    match candidates routes path with
    | .error fault => .unusable fault
    | .ok candidates =>
        match candidates.find? fun (route, _) => route.serves method with
        | some (route, capture) => .found route capture
        | none =>
            if isDescription path || !candidates.isEmpty then .methodNotAllowed
            else if needsRedirect routes path then .redirect
            else .missing

end Dispatch

end ResourceServer.Http
