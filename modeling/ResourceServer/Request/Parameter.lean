import ResourceServer.Error
import ResourceServer.Json.Reader
import ResourceServer.Schema.Registry
import ResourceServer.Text.Casing

/-!
# Single parameters

The same parameter may come from a query string or from a body, so flags, whole numbers and lists are
read both from text and from values of their own kind. Every reader is told the name of the parameter
for its messages.
-/

namespace ResourceServer.Parameter

/-- Words that set a flag. -/
def setWords : List String := ["1", "true", "yes", "on"]

/-- Words that clear a flag; the empty word is one of them. -/
def clearWords : List String := ["0", "false", "no", "off", ""]

/-- Reads a flag. -/
def flag (name : String) (value : Value) : Except Error Bool :=
  match value with
  | .bool value => .ok value
  | .int 0 => .ok false
  | .int 1 => .ok true
  | .text text =>
      let word := Text.lowerWord (Text.trim text)
      if setWords.contains word then .ok true
      else if clearWords.contains word then .ok false
      else .error (.malformed (.notBoolean name value))
  | _ => .error (.malformed (.notBoolean name value))

/-- Whether a text looks like a whole number: digits of any kind after any number of minus signs. -/
def looksWhole (text : String) : Bool :=
  let digits := text.toList.dropWhile (· = '-')
  !digits.isEmpty && digits.all Text.isDigit

/-- Reads text that looks like a whole number. -/
def wholeNumber (text : String) : Except Error Int :=
  match Numeral.readInt text with
  | .ok number => .ok number
  | .error .malformed => .error (.value (.notNumeral text))
  | .error (.tooLong digits) => .error (.value (.tooManyDigits digits))

/-- Reads a whole number that is not below a minimum. -/
def integer (name : String) (minimum : Int) (value : Value) : Except Error Int := do
  let number ←
    match value with
    | .int number => .ok number
    | .text text =>
        let trimmed := Text.trim text
        if looksWhole trimmed then wholeNumber trimmed
        else .error (.malformed (.notInteger name value))
    | _ => .error (.malformed (.notInteger name value))
  if number < minimum then .error (.malformed (.belowMinimum name minimum number)) else .ok number

/-- The texts of a list that holds nothing but texts. -/
def texts? : List Value → Option (List String)
  | [] => some []
  | .text text :: rest => (texts? rest).map (text :: ·)
  | _ :: _ => none

/-- The texts without surrounding blanks, empty ones left out. -/
def trimmed (parts : List String) : List String :=
  (parts.map Text.trim).filter fun part => !part.isEmpty

/-- Reads a list of words: a text with commas between them, or a list of texts. -/
def words (name : String) (value : Value) : Except Error (List String) :=
  match value with
  | .null => .ok []
  | .text text => .ok (trimmed ((splitAtEvery ',' text.toList).map String.ofList))
  | .list items =>
      match texts? items with
      | some parts => .ok (trimmed parts)
      | none => .error (.malformed (.notTextList name))
  | _ => .error (.malformed (.notTextList name))

/-- A value that may have been encoded as text; every other value stands for itself. -/
def decoded (value : Value) (malformed : (detail : String) → Error) : Except Error Value :=
  match value with
  | .text text =>
      match Json.read text with
      | .ok decoded => .ok decoded
      | .error (.malformed kind offset) => .error (malformed (kind.messageAt text offset))
      | .error (.integerTooLong digits) => .error (.value (.tooManyDigits digits))
      | .error .tooDeep => .error (.plain .recursion)
  | other => .ok other

end ResourceServer.Parameter
