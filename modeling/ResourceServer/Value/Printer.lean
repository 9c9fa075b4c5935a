import ResourceServer.Value
import ResourceServer.Numeric.Decimal
import ResourceServer.Text.Printable

/-!
# Text of values

`describe` is how a message shows a value: texts are quoted, lists and objects are in brackets.
`plain` is the text that pattern matching and string parameters see: a text is itself, every other
value is as in messages, except that a moment is in its interchange form.
-/

namespace ResourceServer

namespace Text

/-- A hexadecimal number of a fixed width. -/
def hexadecimal (width value : Nat) : String :=
  let digits := String.ofList (Nat.toDigits 16 value)
  String.ofList (List.replicate (width - digits.length) '0') ++ digits

/-- A character inside quotes. -/
def quoteCharacter (quote character : Char) : String :=
  if character = quote ∨ character = '\\' then String.ofList ['\\', character]
  else if character = '\n' then "\\n"
  else if character = '\r' then "\\r"
  else if character = '\t' then "\\t"
  else if isPrintable character then String.singleton character
  else if character.toNat < 0x100 then "\\x" ++ hexadecimal 2 character.toNat
  else if character.toNat < 0x10000 then "\\u" ++ hexadecimal 4 character.toNat
  else "\\U" ++ hexadecimal 8 character.toNat

/-- A text in quotes: single ones, unless it holds single quotes and no double ones. -/
def quoted (text : String) : String :=
  let characters := text.toList
  let quote := if characters.contains '\'' && !characters.contains '"' then '"' else '\''
  String.singleton quote ++ String.join (characters.map (quoteCharacter quote))
    ++ String.singleton quote

end Text

namespace Value

mutual

/-- The value as messages show it. -/
def describe : Value → String
  | .null => "None"
  | .bool true => "True"
  | .bool false => "False"
  | .int value => toString value
  | .float value => value.text
  | .text value => Text.quoted value
  | .moment value => value.describe
  | .list items => "[" ++ String.intercalate ", " (describeItems items) ++ "]"
  | .object members => "\x7b" ++ String.intercalate ", " (describeMembers members) ++ "\x7d"

/-- The items of a list as messages show them. -/
def describeItems : List Value → List String
  | [] => []
  | item :: rest => describe item :: describeItems rest

/-- The members of an object as messages show them. -/
def describeMembers : List (String × Value) → List String
  | [] => []
  | (name, value) :: rest => (Text.quoted name ++ ": " ++ describe value) :: describeMembers rest

end

/-- The text of a value. -/
def plain : Value → String
  | .text value => value
  | .moment value => value.isoText " "
  | value => value.describe

/-- The word that messages use for the kind of a value. -/
def kindWord : Value → String
  | .null => "NoneType"
  | .bool _ => "bool"
  | .int _ => "int"
  | .float _ => "float"
  | .text _ => "str"
  | .moment _ => "datetime"
  | .list _ => "list"
  | .object _ => "dict"

end Value

end ResourceServer
