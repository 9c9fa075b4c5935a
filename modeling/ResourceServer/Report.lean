import ResourceServer.Value

/-!
# Validation reports

Checking an input yields one report for everything that is wrong with it: the kind of fault, the place
inside the input, the wording, and the offending part.
-/

namespace ResourceServer

/-- One step on the way to a part of an input. -/
inductive Place
  | name (name : String)
  | index (position : Int)
deriving DecidableEq, Repr

/-- One thing that is wrong with an input. -/
structure Report where
  kind : String
  place : List Place
  message : String
  input : Value := .null
deriving Repr

namespace Report

/-- The same report seen from an enclosing input. -/
def within (steps : List Place) (report : Report) : Report :=
  { report with place := steps ++ report.place }

/-- A required part is missing. -/
def missing (input : Value) : Report := ⟨"missing", [], "Field required", input⟩

/-- A part that must be a text is none. -/
def notText (input : Value) : Report := ⟨"string_type", [], "Input should be a valid string", input⟩

/-- A part that must be a whole number is none. -/
def notInteger (input : Value) : Report := ⟨"int_type", [], "Input should be a valid integer", input⟩

/-- A part that must be a number is none. -/
def notNumber (input : Value) : Report := ⟨"float_type", [], "Input should be a valid number", input⟩

/-- A part that must be a boolean is none. -/
def notBoolean (input : Value) : Report := ⟨"bool_type", [], "Input should be a valid boolean", input⟩

/-- A part that must be a list is none. -/
def notList (input : Value) : Report := ⟨"list_type", [], "Input should be a valid list", input⟩

/-- A part that must be one of some words is none. -/
def notMember (words : List String) (input : Value) : Report :=
  let quoted := words.map fun word => "'" ++ word ++ "'"
  let choice :=
    match quoted.reverse with
    | last :: second :: rest =>
        String.intercalate ", " (second :: rest).reverse ++ " or " ++ last
    | _ => String.intercalate ", " quoted
  ⟨"enum", [], "Input should be " ++ choice, input⟩

end Report

end ResourceServer
