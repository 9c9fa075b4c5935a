import ResourceServer.Report.Reader
import ResourceServer.Schema.Resource

/-!
# Payloads

A payload schema checks what a client wants to write and brings it into the types of its fields. Every
fault is reported, in the order of the fields. Members that the schema does not know are left out. In a
partial payload only the members that are given count.
-/

namespace ResourceServer

/-- The type of a payload field with its bounds. -/
inductive PayloadType
  | text (minimumLength : Nat)
  | integer (minimum : Option Int)
deriving DecidableEq, Repr

/-- A field of a payload; one without a fallback is required. -/
structure PayloadField where
  name : String
  type : PayloadType
  nullable : Bool := false
  fallback : Option Value := none
deriving Repr

/-- The fields of a payload. -/
abbrev PayloadSchema := List PayloadField

namespace PayloadType

/-- Takes a value for one of this type. -/
def read (type : PayloadType) (input : Value) : Except Report Value :=
  match type with
  | .text minimum =>
      match input with
      | .text word => if word.length < minimum then .error (Report.tooShort minimum input) else .ok input
      | _ => .error (Report.notText input)
  | .integer none => (Report.readInteger input).map .int
  | .integer (some minimum) => (Report.readIntegerFrom minimum input).map .int

end PayloadType

namespace PayloadField

/-- Reads a field that is given. -/
def read (field : PayloadField) (input : Value) : Except Report Value :=
  if field.nullable && input.isNull then .ok .null
  else
    match field.type.read input with
    | .ok value => .ok value
    | .error report => .error (report.within [.name field.name])

/-- Reads a field of a payload. -/
def readFrom (field : PayloadField) (payload : Record) : Except Report Value :=
  match payload.get? field.name, field.fallback with
  | some input, _ => field.read input
  | none, some fallback => .ok fallback
  | none, none => .error ((Report.missing (.object payload)).within [.name field.name])

end PayloadField

namespace PayloadSchema

/-- The reports on a payload. -/
def reports (schema : PayloadSchema) (payload : Record) : List Report :=
  schema.filterMap fun field =>
    match field.readFrom payload with
    | .ok _ => none
    | .error report => some report

/-- The values of the fields of a payload. -/
def values (schema : PayloadSchema) (payload : Record) : Record :=
  schema.filterMap fun field =>
    match field.readFrom payload with
    | .ok value => some (field.name, value)
    | .error _ => none

/-- Checks a payload. -/
def check (schema : PayloadSchema) (isPartial : Bool) (payload : Record) : Except (List Report) Record :=
  match schema.reports payload with
  | [] =>
      .ok (if isPartial then (schema.values payload).filter fun entry => payload.has entry.1
        else schema.values payload)
  | reports => .error reports

end PayloadSchema

/-- Checks what a client wants to write to a resource and keeps the fields that may be set. -/
def Resource.readPayload (resource : Resource) (schema : Option PayloadSchema) (isPartial : Bool)
    (input : Value) : Except Error Record :=
  match input, schema with
  | .object payload, none => .ok (resource.filterPayload payload)
  | .object payload, some schema =>
      match schema.check isPartial payload with
      | .ok values => .ok (resource.filterPayload values)
      | .error reports => .error (.invalidPayload resource.name reports)
  | _, _ => .error (.malformed (.payloadShape input))

end ResourceServer
