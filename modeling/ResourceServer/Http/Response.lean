import ResourceServer.Inspection
import ResourceServer.Json.Reader
import ResourceServer.Json.Writer

/-!
# Responses

A response has a status and a body, which is interchange text or plain text. Errors of the request, of the
rights of its user, of missing entities and of conflicting data have statuses of their own; everything else
is a failure of the server, about which as little is said as possible.
-/

namespace ResourceServer

namespace Value

mutual

/-- Whether all numbers in a value can be written in interchange text. -/
def isFinite : Value → Bool
  | .float value => value.isFinite
  | .list items => areFinite items
  | .object members => membersAreFinite members
  | _ => true

/-- Whether all numbers in the items of a list can be written. -/
def areFinite : List Value → Bool
  | [] => true
  | item :: rest => isFinite item && areFinite rest

/-- Whether all numbers in the members of an object can be written. -/
def membersAreFinite : List (String × Value) → Bool
  | [] => true
  | (_, value) :: rest => isFinite value && membersAreFinite rest

end

end Value

namespace Http

/-- What is in the body of a response. -/
inductive Content
  | interchange (text : String)
  | plain (text : String)
deriving DecidableEq, Repr, Inhabited

/-- A response. -/
structure Response where
  status : Nat
  content : Content
deriving DecidableEq, Repr, Inhabited

/-- Why the body of a request cannot be used. -/
inductive BodyFault
  /-- The body is no interchange text. -/
  | malformed (kind : Json.FaultKind) (offset : Nat)
  /-- The bytes of the body are no text, or it holds a number that is too long or is nested too deeply. -/
  | unreadable
  /-- The body is something else than an object. -/
  | notObject (value : Value)
deriving Repr

namespace Response

/-- The response with an empty body. -/
def withoutBody (response : Response) : Response := { response with content := .plain "" }

/-- The response with a description of the application, which is not kept here. -/
def description : Response := ⟨200, .plain ""⟩

/-- The response to a failure of the server. -/
def failure : Response := ⟨500, .plain "Internal Server Error"⟩

/-- A response with a value. A value that cannot be written is a failure of the server. -/
def ofValue (status : Nat) (value : Value) : Response :=
  if value.isFinite then ⟨status, .interchange (Json.write value)⟩ else failure

/-- A response that says what is wrong. -/
def ofDetail (status : Nat) (detail : Value) : Response := ofValue status (.object [("detail", detail)])

/-- The response to a path that is not served. -/
def missing : Response := ofDetail 404 (.text "Not Found")

/-- The response to a method that a path does not serve. -/
def methodNotAllowed : Response := ofDetail 405 (.text "Method Not Allowed")

/-- The response that sends the client to the path without the slash at its end. -/
def redirect : Response := ⟨307, .plain ""⟩

/-- The response to a body that cannot be used. -/
def ofBodyFault : BodyFault → Response
  | .malformed kind offset =>
      ofDetail 422 (.list [.object [("type", .text "json_invalid"),
        ("loc", .list [.text "body", .int offset]), ("msg", .text "JSON decode error"),
        ("input", .object []), ("ctx", .object [("error", .text kind.message)])]])
  | .unreadable => ofDetail 400 (.text "There was an error parsing the body")
  | .notObject value =>
      ofDetail 422 (.list [.object [("type", .text "dict_type"), ("loc", .list [.text "body"]),
        ("msg", .text "Input should be a valid dictionary"), ("input", value)]])

/-- The status and the message of an error that a client is told about. -/
def statusOf? (error : Error) : Option (Nat × String) :=
  if error.isRequestError then some (422, error.message)
  else
    match error.category with
    | .denied => some (403, error.message)
    | .notFound => some (404, error.message)
    | .integrity => some (409, "The request conflicts with existing data")
    | .transaction => some (500, "Transaction failed")
    | .configuration => some (500, "Server misconfigured")
    | _ => none

/-- The reports on a payload that go with an error about it. -/
def reportMembers (error : Error) : Record :=
  if error.category = .invalidPayload then
    [("errors", .list (error.reports.map fun report => .object report.toRecordWithInput))]
  else []

/-- The response to an error. -/
def ofError (error : Error) : Response :=
  match statusOf? error with
  | some (status, message) => ofValue status (.object (("message", .text message) :: reportMembers error))
  | none => failure

/-- The response to the outcome of an operation. -/
def ofOutcome (status : Nat) : Except Error Answer → Response
  | .ok answer => ofValue status answer.toValue
  | .error error => ofError error

end Response

end Http

end ResourceServer
