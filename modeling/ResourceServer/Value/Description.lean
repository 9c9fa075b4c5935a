import ResourceServer.Value.Printer

/-!
# Descriptions

A description is an object that says how something else is to be made. Its parts are read by name, and a
part that is missing or has another shape reads as empty or as a fallback.
-/

namespace ResourceServer.Value

/-- The members of an object; every other value has none. -/
def members : Value → Record
  | .object members => members
  | _ => []

/-- The items of a list; every other value has none. -/
def items : Value → List Value
  | .list items => items
  | _ => []

/-- The part of a name. -/
def part? (description : Value) (name : String) : Option Value := description.members.get? name

/-- The part of a name, null when it is missing. -/
def part (description : Value) (name : String) : Value := description.members.get name

/-- A part that is a text. -/
def textPart (description : Value) (name : String) (fallback : String := "") : String :=
  match description.part? name with
  | some (.text words) => words
  | _ => fallback

/-- A part that is a whole number. -/
def intPart (description : Value) (name : String) (fallback : Int) : Int :=
  match description.part? name with
  | some (.int number) => number
  | _ => fallback

/-- A part that counts as true or not. -/
def flagPart (description : Value) (name : String) (fallback : Bool := false) : Bool :=
  match description.part? name with
  | some flag => flag.isTruthy
  | none => fallback

/-- The items of a part. -/
def itemParts (description : Value) (name : String) : List Value := (description.part name).items

/-- The members of a part. -/
def memberParts (description : Value) (name : String) : Record := (description.part name).members

/-- The texts of the items of a part. -/
def textParts (description : Value) (name : String) : List String :=
  (description.itemParts name).map plain

end ResourceServer.Value
