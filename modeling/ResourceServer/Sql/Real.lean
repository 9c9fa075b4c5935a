import ResourceServer.Numeric.Decimal
import ResourceServer.Numeric.Extended
import ResourceServer.Text.Digit

/-!
# Doubles and texts in a database

A database writes fifteen significant digits of a double, and reads at most nineteen digits of a text. Both ways
it scales by powers of ten in extended precision, so the outcome is not always the nearest one.
-/

namespace ResourceServer.Sql

/-! ## Writing -/

namespace RealWriter

/-- A number that is brought to one digit in front of its point, and the power of ten that has been taken out. -/
structure Scaled where
  value : Extended
  exponent : Int
deriving Repr

/-- The nearest extended number to a double that a decimal spells. -/
def constant (digits : Nat) (exponent : Int) : Extended := .ofDouble (Decimal.toBinary64 false ⟨digits, exponent⟩)

/-- How many decimal places follow the first digit. -/
def places : Nat := 14

/-- Half a unit of the last digit, itself a product of rounded doubles. -/
def half : Extended :=
  .ofDouble ((Decimal.toBinary64 false ⟨5, -5⟩).mul (Decimal.toBinary64 false ⟨1, -10⟩))

/-- Enlarges a scale by powers of ten as long as a number is not below the next one. -/
def enlarge (value : Extended) (power : Nat) (scale : Extended × Int) : (budget : Nat) → Extended × Int
  | 0 => scale
  | budget + 1 =>
      let next := (constant 1 power).mul scale.1
      if next.isAtMost value then enlarge value power (next, scale.2 + power) budget else scale

/-- Enlarges a number by powers of ten as long as it is below a limit. -/
def raise (limit : Extended) (power : Nat) (scaled : Scaled) : (budget : Nat) → Scaled
  | 0 => scaled
  | budget + 1 =>
      if scaled.value.isBelow limit then
        raise limit power ⟨scaled.value.mul (constant 1 power), scaled.exponent - power⟩ budget
      else scaled

/-- Brings a positive number to one digit in front of its point. -/
def normalize (value : Extended) : Scaled :=
  let scale := enlarge value 100 (⟨1, 0⟩, 0) 4
  let scale := enlarge value 10 scale 10
  let scale := enlarge value 1 scale 10
  let scaled : Scaled := ⟨value.div scale.1, scale.2⟩
  raise ⟨1, 0⟩ 1 (raise (constant 1 (-8)) 8 scaled 50) 10

/-- Adds half a unit of the last digit. -/
def round (scaled : Scaled) : Scaled :=
  let value := scaled.value.add half
  if (constant 10 0).isAtMost value then ⟨value.mul (constant 1 (-1)), scaled.exponent + 1⟩
  else ⟨value, scaled.exponent⟩

/-- The first digits of a number as a whole number, given the digits in front of them. -/
def digits (value : Extended) (taken : Nat) : (count : Nat) → Nat
  | 0 => taken
  | count + 1 =>
      let (digit, rest) := value.split
      digits (rest.mul (constant 10 0)) (taken * 10 + digit) count

end RealWriter

/-- The decimal that stands for a positive finite double. -/
def decimalOf (value : Binary64) : Decimal :=
  let scaled := RealWriter.round (RealWriter.normalize (.ofDouble value))
  Decimal.trim ⟨RealWriter.digits scaled.value 0 (RealWriter.places + 1), scaled.exponent - RealWriter.places⟩ 20

/-- Fifteen significant digits; exponents from -4 to 14 are written positionally. -/
def realLayout : Decimal.Layout := ⟨-4, 15, true⟩

/-- The text of a double. -/
def realText : Binary64 → String
  | .nan _ => ""
  | .infinite negative => if negative then "-Inf" else "Inf"
  | .finite negative significand exponent =>
      if significand = 0 then "0.0"
      else
        (if negative then "-" else "")
          ++ (decimalOf (.finite false significand exponent)).write realLayout

/-! ## Reading -/

namespace RealReader

/-- The greatest word, and a bound from which on no further digit is taken into a significand. -/
def greatestWord : Nat := 0x7fffffffffffffff

/-- Whether a significand takes no further digit. -/
def isFull (significand : Nat) : Bool := (greatestWord - 9) / 10 ≤ significand

/-- The significand of digits in front of the point, and how many of them it leaves out. -/
def takeWhole (significand : Nat) : List Char → Nat × Nat
  | [] => (significand, 0)
  | digit :: rest =>
      let significand := significand * 10 + (digit.toNat - '0'.toNat)
      if isFull significand then (significand, rest.length) else takeWhole significand rest

/-- The significand after the digits of a fraction, and how many of them it takes. -/
def takeFraction (significand taken : Nat) : List Char → Nat × Nat
  | [] => (significand, taken)
  | digit :: rest =>
      if isFull significand then (significand, taken)
      else takeFraction (significand * 10 + (digit.toNat - '0'.toNat)) (taken + 1) rest

/-- Moves a power of ten into a significand as far as that is exact and the significand stays in a word. -/
def reduce (significand : Nat) (isNegative : Bool) : (exponent : Nat) → Nat × Nat
  | 0 => (significand, 0)
  | exponent + 1 =>
      if isNegative then
        if significand % 10 = 0 then reduce (significand / 10) isNegative exponent
        else (significand, exponent + 1)
      else if significand < greatestWord / 10 then reduce (significand * 10) isNegative exponent
      else (significand, exponent + 1)

/-- The quotient of two doubles of which neither is infinite nor the second one zero, rounded. -/
def divide (left right : Binary64) : Binary64 :=
  match left, right with
  | .finite negative numerator leftExponent, .finite _ denominator rightExponent =>
      let least := min leftExponent rightExponent
      .ofRatio negative (numerator * Nat.pow 2 (leftExponent - least).toNat)
        (denominator * Nat.pow 2 (rightExponent - least).toNat)
  | _, _ => left

/-- The power of ten that is scaled by at once. Greater ones need a second step. -/
def stepLimit : Nat := 307

/-- From this power of ten on everything is infinite or zero. -/
def beyond : Nat := 342

/-- The double for a significand and a power of ten. -/
def scale (negative : Bool) (significand : Nat) (isNegative : Bool) (exponent : Nat) : Binary64 :=
  let value : Extended := ⟨significand, 0⟩
  if exponent = 0 then .ofScaled negative significand 0
  else if exponent ≤ stepLimit then
    let power := Extended.powerOfTen exponent
    (if isNegative then value.div power else value.mul power).toDouble negative
  else if exponent < beyond then
    let power := Extended.powerOfTen (exponent - (stepLimit + 1))
    let last := Decimal.toBinary64 false ⟨1, stepLimit + 1⟩
    if isNegative then divide ((value.div power).toDouble negative) last
    else ((value.mul power).toDouble negative).mul last
  else if isNegative then .finite negative 0 Binary64.minExponent
  else .infinite negative

end RealReader

/-- The double that a numeral is read as: its sign, the digits in front of and behind its point, and its power of
ten. -/
def readReal (negative : Bool) (whole fraction : List Char) (exponent : Int) : Binary64 :=
  let (significand, skipped) := RealReader.takeWhole 0 whole
  let (significand, taken) := RealReader.takeFraction significand 0 fraction
  let exponent := exponent + skipped - taken
  if significand = 0 then .finite negative 0 Binary64.minExponent
  else
    let (significand, rest) := RealReader.reduce significand (exponent < 0) exponent.natAbs
    RealReader.scale negative significand (exponent < 0) rest

end ResourceServer.Sql
