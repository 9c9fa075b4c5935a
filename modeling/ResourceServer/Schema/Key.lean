import ResourceServer.Schema.Resource
import ResourceServer.Numeric.Numeral

/-!
# Keys from requests

A request often spells a key as text. It is converted to the type of the key column: numerals to
numbers, numbers to whole numbers by cutting off the fraction. A boolean is no key. A column of texts
or of moments takes every other value as it stands, and an untyped column takes every value.
-/

namespace ResourceServer

namespace Resource

/-- The failure on a value that is no key of a resource. -/
def malformedKey (resource : Resource) (raw : Value) : Error := .malformed (.key resource.name raw)

/-- A key of an integer column. -/
def integerKey (resource : Resource) (raw : Value) : Except Error Value :=
  match raw with
  | .int _ => .ok raw
  | .float value =>
      match value with
      | .nan _ => .error (resource.malformedKey raw)
      | .infinite _ => .error (.plain .overflow)
      | .finite .. =>
          match value.truncate? with
          | some whole => .ok (.int whole)
          | none => .error (resource.malformedKey raw)
  | .text text =>
      match Numeral.readInt text with
      | .ok value => .ok (.int value)
      | .error _ => .error (resource.malformedKey raw)
  | _ => .error (resource.malformedKey raw)

/-- A key of a column of doubles. -/
def realKey (resource : Resource) (raw : Value) : Except Error Value :=
  match raw with
  | .float _ => .ok raw
  | .int value =>
      match Binary64.ofInt value with
      | .infinite _ => .error (.plain .overflow)
      | double => .ok (.float double)
  | .text text =>
      match Numeral.readFloat? text with
      | some value => .ok (.float value)
      | none => .error (resource.malformedKey raw)
  | _ => .error (resource.malformedKey raw)

/-- A key of a boolean column. -/
def booleanKey (resource : Resource) (raw : Value) : Except Error Value :=
  match raw with
  | .null | .bool _ | .list _ | .object _ => .error (resource.malformedKey raw)
  | _ => .ok (.bool raw.isTruthy)

/-- A key of a column that takes values as they stand: anything but a boolean. -/
def plainKey (resource : Resource) (raw : Value) : Except Error Value :=
  match raw with
  | .bool _ => .error (resource.malformedKey raw)
  | _ => .ok raw

/-- Converts a raw key to the type of the key column. -/
def coerceKey (resource : Resource) (raw : Value) : Except Error Value :=
  match resource.model.column? resource.keyName with
  | none => .error (.lookup (.column resource.keyName))
  | some column =>
      match column.type with
      | .integer => resource.integerKey raw
      | .real => resource.realKey raw
      | .boolean => resource.booleanKey raw
      | .text => resource.plainKey raw
      | .moment => resource.plainKey raw
      | .untyped => .ok raw

end Resource

end ResourceServer
