import ResourceServer.Request.Parameter

/-!
# Requests

What an operation needs to know about one inbound request, whatever brought it here. Where a parameter
is given both in the query and in the body, the body wins.
-/

namespace ResourceServer

/-- An inbound request. -/
structure Request where
  path : String := "/"
  query : Record := []
  body : Record := []
  user : Value := .null
deriving Repr, Inhabited

namespace Request

/-- All parameters. -/
def parameters (request : Request) : Record := request.query.merge request.body

/-- One parameter, or a given value when the request has none of that name. -/
def input (request : Request) (name : String) (fallback : Value := .null) : Value :=
  (request.body.get? name <|> request.query.get? name).getD fallback

/-- One parameter as a flag. -/
def flag (request : Request) (name : String) (fallback : Value := .bool false) : Except Error Bool :=
  Parameter.flag name (request.input name fallback)

end Request

end ResourceServer
