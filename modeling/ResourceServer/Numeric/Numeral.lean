import ResourceServer.Numeric.Decimal
import ResourceServer.Text.Blank
import ResourceServer.Text.Digit

/-!
# Numerals in text

Request text writes whole numbers and doubles with the digits of any script, with blanks around them
and with single underscores between digits. A whole number of more than 4300 digits is refused.
-/

namespace ResourceServer

namespace Numeral

/-- The greatest number of digits a whole number may have in text. -/
def digitLimit : Nat := 4300

/-- Reads one or more digits, with single underscores between them: the values of the digits and
the rest of the text. -/
def readDigits : List Char → List Nat × List Char
  | [] => ([], [])
  | '_' :: character :: rest =>
      match Text.decimalValue? character with
      | some digit =>
          let (digits, remaining) := readDigits rest
          (digit :: digits, remaining)
      | none => ([], '_' :: character :: rest)
  | character :: rest =>
      match Text.decimalValue? character with
      | some digit =>
          let (digits, remaining) := readDigits rest
          (digit :: digits, remaining)
      | none => ([], character :: rest)

/-- Digits that start with a digit, not with an underscore. -/
def readNumber : List Char → List Nat × List Char
  | '_' :: rest => ([], '_' :: rest)
  | characters => readDigits characters

/-- The number that digits spell. -/
def ofDigits (digits : List Nat) : Nat := digits.foldl (fun total digit => total * 10 + digit) 0

/-- Splits a sign off. -/
def splitSign : List Char → Bool × List Char
  | '-' :: rest => (true, rest)
  | '+' :: rest => (false, rest)
  | characters => (false, characters)

/-- Why a text is no whole number. -/
inductive Fault
  | malformed
  | tooLong (digits : Nat)
deriving DecidableEq, Repr

/-- Reads a whole number. -/
def readInt (text : String) : Except Fault Int :=
  let (negative, characters) := splitSign (Text.trimNumeral text).toList
  let (digits, remaining) := readNumber characters
  if digits.isEmpty || !remaining.isEmpty then .error .malformed
  else if digitLimit < digits.length then .error (.tooLong digits.length)
  else
    let magnitude : Int := ofDigits digits
    .ok (if negative then -magnitude else magnitude)

/-- Reads the power of ten that may follow a decimal. -/
def readExponent : List Char → Option (Int × List Char)
  | mark :: rest =>
      if mark = 'e' ∨ mark = 'E' then
        let (negative, characters) := splitSign rest
        let (digits, remaining) := readNumber characters
        if digits.isEmpty then none
        else
          let magnitude : Int := ofDigits digits
          some (if negative then -magnitude else magnitude, remaining)
      else some (0, mark :: rest)
  | [] => some (0, [])

/-- Words that name a double. -/
def namedFloat? (word : String) : Option Binary64 :=
  if word = "inf" ∨ word = "infinity" then some (.infinite false)
  else if word = "nan" then some (.nan 0)
  else none

/-- Reads a double: a decimal with an optional power of ten, or the name of a special value. -/
def readFloat? (text : String) : Option Binary64 :=
  let (negative, characters) := splitSign (Text.trimNumeral text).toList
  match namedFloat? (String.ofList (characters.map Char.toLower)) with
  | some special => some (if negative then special.negate else special)
  | none =>
      let (whole, rest) := readNumber characters
      let (fraction, rest) :=
        match rest with
        | '.' :: rest => readNumber rest
        | _ => ([], rest)
      if whole.isEmpty && fraction.isEmpty then none
      else
        match readExponent rest with
        | some (exponent, []) =>
            some (Decimal.toBinary64 negative ⟨ofDigits (whole ++ fraction), exponent - fraction.length⟩)
        | _ => none

end Numeral

end ResourceServer
