import ResourceServer.Numeric.Numeral
import ResourceServer.Settings.Document
import ResourceServer.Text.Base64
import ResourceServer.Text.Casing
import ResourceServer.Yaml.Tag

/-!
# The meaning of scalars

What the text of a scalar stands for under each tag. Whole numbers and decimals may have underscores, and digits
in base sixty between colons.
-/

namespace ResourceServer.Yaml

namespace Tag

/-- The letters that mark digits of a base, behind a zero. -/
def baseMarks : (base : Nat) → List Char
  | 2 => ['b', 'B']
  | 8 => ['o', 'O']
  | 16 => ['x', 'X']
  | _ => []

/-- Digits without the mark of their base. -/
def withoutMark (base : Nat) : List Char → List Char
  | '0' :: mark :: digits => if (baseMarks base).contains mark then digits else '0' :: mark :: digits
  | digits => digits

/-- The ASCII digit of the same value, for a digit of any script. -/
def plainDigit (character : Char) : Char :=
  match Text.decimalValue? character with
  | some digit => Char.ofNat ('0'.toNat + digit)
  | none => character

/-- The number that a text spells in a base; underscores have been taken out. -/
def numberIn? (base : Nat) (text : String) : Option Int := do
  let (negative, digits) := Numeral.splitSign ((Text.trimNumeral text).toList.map plainDigit)
  let values ← (withoutMark base digits).mapM Text.hexDigit?
  if values.isEmpty || values.any (base ≤ ·) then none
  else
    let magnitude : Int := (values.foldl (fun total digit => total * base + digit) 0 : Nat)
    some (if negative then -magnitude else magnitude)

/-- Whether a text starts with a minus sign. -/
def isNegative (characters : List Char) : Bool := characters.head? == some '-'

/-- The whole number that a text spells in a base of two, eight or sixteen. -/
def integerInBase (base : Nat) (digits : List Char) : Except Error Int :=
  match numberIn? base (String.ofList digits) with
  | some number => .ok number
  | none => .error (.value (.notNumeral (String.ofList digits) base))

/-- The whole number that a text spells in decimal digits. -/
def decimalInteger (digits : List Char) : Except Error Int :=
  match Numeral.readInt (String.ofList digits) with
  | .ok number => .ok number
  | .error .malformed => .error (.value (.notNumeral (String.ofList digits)))
  | .error (.tooLong count) => .error (.value (.tooManyDigits count))

/-- The whole number that a text without a sign spells, in whatever form. -/
def magnitudeOf : List Char → Except Error Int
  | [] => .error (.plain .emptyNumeral)
  | ['0'] => .ok 0
  | '0' :: 'b' :: rest => integerInBase 2 rest
  | '0' :: 'x' :: rest => integerInBase 16 rest
  | '0' :: rest => integerInBase 8 ('0' :: rest)
  | digits =>
      if digits.contains ':' then do
        let parts ← (atColons digits).mapM decimalInteger
        .ok (parts.foldl (fun total part => total * 60 + part) 0)
      else decimalInteger digits

/-- The whole number that a text spells, in whatever form. -/
def integerOf (text : String) : Except Error Int := do
  let characters := text.toList.filter (· != '_')
  let magnitude ← magnitudeOf (unsigned characters)
  .ok (if isNegative characters then -magnitude else magnitude)

/-- The double that a text spells as a decimal. -/
def decimalOf (digits : List Char) : Except Error Binary64 :=
  match Numeral.readFloat? (String.ofList digits) with
  | some number => .ok number
  | none => .error (.value (.notDecimal (String.ofList digits)))

/-- The value of digits in base sixty, the last one first, where the first of them counts `weight` times. Every
weight, every product and every sum is rounded, and a weight must not be too great for a double. -/
def sexagesimal (total : Binary64) (weight : Nat) : List Binary64 → Except Error Binary64
  | [] => .ok total
  | digit :: rest =>
      let factor := Binary64.ofInt weight
      if factor.isFinite then sexagesimal (total.add (digit.mul factor)) (weight * 60) rest
      else .error (.plain .overflow)

/-- The mark of the NaN that has a word of its own. -/
def namedNaN : Nat := 2

/-- The double that a text spells, in whatever form. -/
def realOf (text : String) : Except Error Binary64 := do
  let characters := (Text.lowered (String.ofList (text.toList.filter (· != '_')))).toList
  let digits := unsigned characters
  match String.ofList digits with
  | ".nan" => .ok (.nan namedNaN)
  | word => do
      let magnitude ←
        if word == ".inf" then .ok (.infinite false)
        else if characters.isEmpty then .error (.plain .emptyNumeral)
        else if digits.contains ':' then do
          let parts ← (atColons digits).mapM decimalOf
          sexagesimal Binary64.zero 1 parts.reverse
        else decimalOf digits
      .ok (if isNegative characters then magnitude.negate else magnitude)

/-- The flag that a word stands for. -/
def booleanOf (text : String) : Except Error Bool :=
  let word := Text.lowered text
  match booleanWords.lookup word with
  | some flag => .ok flag
  | none => .error (.lookup (.column word))

/-- The bytes that a text encodes. -/
def bytesOf (text : String) : Except Error (List UInt8) :=
  if text.toList.any fun character => 0x80 ≤ character.toNat then .error (.document .malformedBytes)
  else
    match Text.bytesOf? text with
    | some bytes => .ok bytes
    | none => .error (.document .malformedBytes)

/-- The seconds of a day. An offset from universal time is less than that. -/
def secondsOfDay : Nat := 86400

/-- The date or moment that a text names. -/
def timeOf (text : String) : Except Error Scalar :=
  match readTimestamp? text.toList with
  | none => .error (.plain .attribute)
  | some time =>
      let digits := time.fraction.take 6
      let microsecond := Text.numberOf digits * Nat.pow 10 (6 - digits.length)
      let moment : Moment :=
        { year := time.year, month := time.month, day := time.day, hour := time.hour.getD 0
          minute := time.minute, second := time.second, microsecond, offset := time.offset }
      match time.offset.filter fun offset => secondsOfDay ≤ offset.natAbs, moment.wrongPart? with
      | some offset, _ => .error (.value (.offsetTooGreat offset))
      | none, some part => .error (.value (.outOfCalendar part moment.year))
      | none, none => .ok (if time.hour.isSome then .value (.moment moment) else .date moment)

/-- Whether a tag gives a scalar a meaning. -/
def isMeaningful : Tag → Bool
  | .null | .boolean | .integer | .real | .timestamp | .binary | .text => true
  | _ => false

/-- What a text stands for under a tag. -/
def scalarOf (tag : Tag) (text : String) : Except Error Scalar :=
  match tag with
  | .null => .ok (.value .null)
  | .boolean => (booleanOf text).map fun flag => .value (.bool flag)
  | .integer => (integerOf text).map fun number => .value (.int number)
  | .real => (realOf text).map fun number => .value (.float number)
  | .timestamp => timeOf text
  | .binary => (bytesOf text).map .bytes
  | .text => .ok (.value (.text text))
  | _ => .error (.document .unknownTag)

end Tag

end ResourceServer.Yaml
