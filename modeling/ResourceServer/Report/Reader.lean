import ResourceServer.Report
import ResourceServer.Numeric.Numeral

/-!
# Lenient readers

Settings and payloads may give a number or a boolean in several forms. A whole number may also be a
double without a fraction, a boolean, or a numeral with a fraction of zeros; a boolean may also be 0,
1 or a word.
-/

namespace ResourceServer.Report

/-- Words that count as true, whatever their case. -/
def trueWords : List String := ["1", "true", "t", "yes", "y", "on"]

/-- Words that count as false, whatever their case. -/
def falseWords : List String := ["0", "false", "f", "no", "n", "off"]

/-- A text cannot be taken for a whole number. -/
def unreadableInteger (input : Value) : Report :=
  ⟨"int_parsing", [], "Input should be a valid integer, unable to parse string as an integer", input⟩

/-- A text is too long for a whole number. -/
def oversizedInteger (input : Value) : Report :=
  ⟨"int_parsing_size", [],
    "Unable to parse input string as an integer, exceeded maximum size", input⟩

/-- A double has a fraction. -/
def fractionalInteger (input : Value) : Report :=
  ⟨"int_from_float", [], "Input should be a valid integer, got a number with a fractional part", input⟩

/-- A double is infinite or NaN. -/
def notFinite (input : Value) : Report :=
  ⟨"finite_number", [], "Input should be a finite number", input⟩

/-- A number lies below the least one allowed. -/
def belowMinimum (minimum : Int) (input : Value) : Report :=
  ⟨"greater_than_equal", [], s!"Input should be greater than or equal to {minimum}", input⟩

/-- A text is shorter than allowed. -/
def tooShort (minimum : Nat) (input : Value) : Report :=
  ⟨"string_too_short", [],
    s!"String should have at least {minimum} character" ++ (if minimum = 1 then "" else "s"), input⟩

/-- What is left of a numeral behind a zero in front of it: the last zero stays when nothing but a fraction
follows. Underscores may stand among the zeros, and a minus sign behind them. -/
def afterZero (last : Char) : List Char → Option (List Char)
  | [] => some [last]
  | character :: rest =>
      if character = '0' ∨ character = '_' then afterZero character rest
      else if character = '-' ∨ character.isDigit then some (character :: rest)
      else if character = '.' then some (last :: character :: rest)
      else none

/-- A numeral without zeros in front. It has to start with a digit or a minus sign; behind the sign zeros
stay. -/
def dropZeros : List Char → Option (List Char)
  | [] => none
  | character :: rest =>
      if character = '0' then afterZero character rest
      else if character = '-' ∨ character.isDigit then some (character :: rest)
      else none

/-- Removes a point with nothing but zeros after it. -/
def dropZeroFraction (characters : List Char) : List Char :=
  let whole := characters.takeWhile (· ≠ '.')
  let fraction := characters.dropWhile (· ≠ '.')
  if (fraction.drop 1).all (· = '0') then whole else characters

/-- Whether a text has two underscores in a row, or one at an end. A minus sign in front does not count. -/
def hasStrayUnderscore (characters : List Char) : Bool :=
  characters.head? = some '_' || ['-', '_'].isPrefixOf characters || characters.getLast? = some '_'
    || (characters.zip (characters.drop 1)).contains ('_', '_')

/-- Removes underscores, unless one of them is out of place. -/
def dropUnderscores (characters : List Char) : List Char :=
  if hasStrayUnderscore characters then characters else characters.filter (· ≠ '_')

/-- The plain form of a numeral: without blanks around it, a plus sign, zeros in front, a fraction of zeros
and underscores. -/
def plainNumeral? (text : String) : Option (List Char) :=
  let unsigned :=
    match (Text.trimPadding text).toList with
    | '+' :: '-' :: _ => none
    | '+' :: rest => some rest
    | characters => some characters
  (unsigned.bind dropZeros).map fun characters => dropUnderscores (dropZeroFraction characters)

/-- Reads the plain form of a numeral without its sign: ASCII digits, not too many of them. -/
def readMagnitude (input : Value) (digits : List Char) : Except Report Nat :=
  if Numeral.digitLimit < (digits.takeWhile Char.isDigit).length then .error (oversizedInteger input)
  else if digits.isEmpty || !digits.all Char.isDigit then .error (unreadableInteger input)
  else .ok (Text.numberOf digits)

/-- Reads a numeral for a whole number. -/
def readNumeral (input : Value) (text : String) : Except Report Int :=
  match plainNumeral? text with
  | none => .error (unreadableInteger input)
  | some ('-' :: digits) => (readMagnitude input digits).map fun magnitude => -(magnitude : Int)
  | some digits => (readMagnitude input digits).map fun magnitude => (magnitude : Int)

/-- Whether a whole number lies strictly between the least word and the number behind the greatest one. -/
def isInsideWord (whole : Int) : Bool := whole.natAbs < 0x8000000000000000

/-- Takes a double for a whole number: it must be finite, without a fraction, and lie inside a word. -/
def readDouble (input : Value) (double : Binary64) : Except Report Int :=
  if !double.isFinite then .error (notFinite input)
  else
    match double.toInt? with
    | none => .error (fractionalInteger input)
    | some whole => if isInsideWord whole then .ok whole else .error (oversizedInteger input)

/-- Takes a value for a whole number. -/
def readInteger (input : Value) : Except Report Int :=
  match input with
  | .bool value => .ok (if value then 1 else 0)
  | .int value => .ok value
  | .float value => readDouble input value
  | .text text => readNumeral input text
  | _ => .error (notInteger input)

/-- Takes a value for a whole number that is not below a minimum. -/
def readIntegerFrom (minimum : Int) (input : Value) : Except Report Int :=
  match readInteger input with
  | .ok value => if value < minimum then .error (belowMinimum minimum input) else .ok value
  | .error report => .error report

/-- A value cannot be taken for a boolean. -/
def unreadableBoolean (input : Value) : Report :=
  ⟨"bool_parsing", [], "Input should be a valid boolean, unable to interpret input", input⟩

/-- Takes a value for a boolean. -/
def readBoolean (input : Value) : Except Report Bool :=
  match input with
  | .bool value => .ok value
  | .int 0 => .ok false
  | .int 1 => .ok true
  | .int whole =>
      if isInsideWord whole || whole = -0x8000000000000000 then .error (unreadableBoolean input)
      else .error (notBoolean input)
  | .float value =>
      match readDouble input value with
      | .ok 0 => .ok false
      | .ok 1 => .ok true
      | .ok _ => .error (unreadableBoolean input)
      | .error _ => .error (notBoolean input)
  | .text word =>
      let lowered := word.map Char.toLower
      if trueWords.contains lowered then .ok true
      else if falseWords.contains lowered then .ok false
      else .error (unreadableBoolean input)
  | _ => .error (notBoolean input)

end ResourceServer.Report
