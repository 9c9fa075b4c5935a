import ResourceServer.Value.Printer

/-!
# Writing interchange text

Values are written without blanks and with ASCII characters only: every other character becomes one or two
code units in hexadecimal. Doubles are written with their shortest digits, moments in their interchange
form.
-/

namespace ResourceServer.Json

/-- A code unit of sixteen bits. -/
def writeCodeUnit (code : Nat) : String := "\\u" ++ Text.hexadecimal 4 code

/-- A character inside a text. -/
def writeCharacter (character : Char) : String :=
  let code := character.toNat
  if character = '"' then "\\\""
  else if character = '\\' then "\\\\"
  else if 0x20 ≤ code ∧ code < 0x7f then String.singleton character
  else if code < 0x10000 then writeCodeUnit code
  else
    writeCodeUnit (0xd800 + (code - 0x10000) / 0x400)
      ++ writeCodeUnit (0xdc00 + (code - 0x10000) % 0x400)

/-- A text in quotes. -/
def writeText (text : String) : String :=
  "\"" ++ String.join (text.toList.map writeCharacter) ++ "\""

mutual

/-- The text of a value. -/
def write : Value → String
  | .null => "null"
  | .bool value => if value then "true" else "false"
  | .int value => toString value
  | .float value => value.text
  | .moment value => writeText (value.isoText "T")
  | .text value => writeText value
  | .list items => "[" ++ String.intercalate "," (writeItems items) ++ "]"
  | .object members => "\x7b" ++ String.intercalate "," (writeMembers members) ++ "\x7d"

/-- The texts of the items of a list. -/
def writeItems : List Value → List String
  | [] => []
  | item :: rest => write item :: writeItems rest

/-- The texts of the members of an object. -/
def writeMembers : List (String × Value) → List String
  | [] => []
  | (name, value) :: rest => (writeText name ++ ":" ++ write value) :: writeMembers rest

end

end ResourceServer.Json
