import ResourceServer.Http.Response
import ResourceServer.Http.Route
import ResourceServer.Http.Target

/-!
# Application

An application serves the resources of a catalog, and chosen relations between them. It turns every request
into a response: the request is dispatched by its method and path, its body is read if the route takes one,
and the outcome of the operation is put into the response.
-/

namespace ResourceServer.Http

/-- How resources are served. -/
structure ApplicationSettings where
  /-- The path in front of those of the resources. -/
  basePath : String := ""
  /-- The relations that are served: the owner and the name of each. -/
  relations : List (String × String) := []
deriving Repr, Inhabited

/-- An application. -/
structure Application (σ : Type) where
  routes : List (Route σ)

/-- A request as it arrives. -/
structure Inbound where
  method : String
  target : Target
  body : String := ""
  user : Value := .null
deriving Repr, Inhabited

namespace Application

variable {σ : Type} [Store σ]

/-- Whether other paths can be put behind a path: it is empty, or starts with a slash and ends without one. -/
def isBase (path : String) : Bool :=
  path.isEmpty || (path.toList.head? == some '/' && path.toList.getLast? != some '/')

/-- The routes of an endpoint below a base path, which has to be one. -/
def routesBelow (basePath : String) (pattern : PathPattern) (endpoint : String → Action σ (Endpoint σ)) :
    Except Error (List (Route σ)) :=
  if isBase basePath then .ok (Route.below ((PathPattern.ofText basePath).map (· ++ pattern)) endpoint)
  else .error (.plain .path)

/-- The routes of a relation. -/
def relationRoutes (catalog : Catalog σ) (settings : Settings) (now : Moment) (basePath owner name : String) :
    Except Error (List (Route σ)) := do
  let relation ← RelationEndpoint.make catalog settings now owner name
  routesBelow basePath [.literal s!"/{owner}/", RouteForm.parentKey, .literal s!"/{name}"]
    fun parentKey => relation.forParent (.text parentKey)

/-- The routes of a resource. -/
def resourceRoutes (catalog : Catalog σ) (settings : Settings) (now : Moment) (basePath name : String) :
    Except Error (List (Route σ)) := do
  let endpoint ← catalog.endpoint settings now name
  routesBelow basePath [.literal s!"/{name}"] fun _ => pure endpoint

/-- The application that serves a catalog, which is closed if it is not yet. Relations go before resources,
so that the name of a relation is never taken for a key. -/
def make (catalog : Catalog σ) (settings : Settings) (now : Moment) (options : ApplicationSettings) :
    Except Error (Application σ) := do
  let catalog ← if catalog.finalized then .ok catalog else catalog.finalize
  let relations ← options.relations.mapM fun (owner, name) =>
    relationRoutes catalog settings now options.basePath owner name
  let resources ← catalog.registry.names.mapM (resourceRoutes catalog settings now options.basePath)
  .ok ⟨(relations ++ resources).flatten⟩

/-- The members of the body of a request. An empty body and null have none. -/
def readBody (text : String) : Except BodyFault Record :=
  if text.isEmpty then .ok []
  else
    match Text.decodedCharacters? (Text.bytesOf text) with
    | none => .error .unreadable
    | some characters =>
        match Json.readCharacters characters with
        | .ok .null => .ok []
        | .ok (.object members) => .ok members
        | .ok other => .error (.notObject other)
        | .error (.malformed kind offset) => .error (.malformed kind offset)
        | .error (.integerTooLong _) => .error .unreadable
        | .error .tooDeep => .error .unreadable

/-- The request that an operation sees. -/
def requestOf (inbound : Inbound) (body : Record) : Request :=
  { path := inbound.target.linkPath, query := queryRecord inbound.target.query, body, user := inbound.user }

/-- Performs the operation of a route. -/
def perform (route : Route σ) (capture : Capture) (request : Request) : Action σ Answer := do
  let endpoint ← route.endpoint (capture.text "parent_key")
  (route.form.operation (.text (capture.text "key"))).perform endpoint request

/-- Responds to a request that a route serves. -/
def serve (route : Route σ) (capture : Capture) (inbound : Inbound) : StateM σ Response :=
  match if route.form.readsBody then readBody inbound.body else .ok [] with
  | .error fault => pure (.ofBodyFault fault)
  | .ok body => fun state =>
      let (outcome, after) := (perform route capture (requestOf inbound body)).perform state
      (.ofOutcome route.form.status outcome, after)

/-- Responds to a request, whether the body of the response is wanted or not. -/
def respondFully (application : Application σ) (inbound : Inbound) : StateM σ Response :=
  match Dispatch.decide application.routes inbound.method inbound.target.path with
  | .found route capture => serve route capture inbound
  | .description => pure .description
  | .methodNotAllowed => pure .methodNotAllowed
  | .redirect => pure .redirect
  | .missing => pure .missing
  | .unusable _ => pure .failure

/-- Responds to a request. Its method may be written in letters of either case, and a request for the head of a
response gets no body. -/
def respond (application : Application σ) (inbound : Inbound) : StateM σ Response := do
  let inbound := { inbound with method := inbound.method.toUpper }
  let response ← application.respondFully inbound
  pure (if inbound.method = "HEAD" then response.withoutBody else response)

end Application

end ResourceServer.Http
