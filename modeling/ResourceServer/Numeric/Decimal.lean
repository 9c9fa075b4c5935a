import ResourceServer.Numeric.Binary64

/-!
# Decimal text of doubles

Reading takes the digits of a decimal and its power of ten to the nearest double. Writing chooses the
fewest digits that read back as the same double, and among those the decimal nearest to it.
-/

namespace ResourceServer

/-- A positive decimal `digits * 10 ^ exponent`. -/
structure Decimal where
  digits : Nat
  exponent : Int
deriving DecidableEq, Repr, Inhabited

namespace Decimal

/-- Number of decimal digits of a positive whole number. -/
def digitCount (value : Nat) : Nat := (toString value).length

/-- The double nearest to a signed decimal. Decimals beyond the range of doubles are cut short
before any power of ten is computed. -/
def toBinary64 (negative : Bool) (value : Decimal) : Binary64 :=
  if value.digits = 0 then .finite negative 0 Binary64.minExponent
  else
    let magnitude : Int := value.exponent + digitCount value.digits
    if 400 < magnitude then .infinite negative
    else if magnitude < -400 then .finite negative 0 Binary64.minExponent
    else if 0 ≤ value.exponent then
      .ofRatio negative (value.digits * Nat.pow 10 value.exponent.toNat) 1
    else
      .ofRatio negative value.digits (Nat.pow 10 (-value.exponent).toNat)

/-- The fraction that a positive significand and exponent stand for. -/
def ratio (significand : Nat) (exponent : Int) : Nat × Nat :=
  if 0 ≤ exponent then (significand * Nat.pow 2 exponent.toNat, 1)
  else (significand, Nat.pow 2 (-exponent).toNat)

/-- The power of ten of the first digit of a positive fraction, found from a close guess. -/
def leadingExponent (numerator denominator : Nat) : Int :=
  let guess : Int := ((Nat.log2 numerator : Int) - Nat.log2 denominator) * 30103 / 100000
  let reaches (power : Int) : Bool :=
    if 0 ≤ power then denominator * Nat.pow 10 power.toNat ≤ numerator
    else denominator ≤ numerator * Nat.pow 10 (-power).toNat
  if reaches (guess + 1) then guess + 1
  else if reaches guess then guess
  else if reaches (guess - 1) then guess - 1
  else guess - 2

/-- A fraction divided by `10 ^ power`, as a new fraction. -/
def shifted (numerator denominator : Nat) (power : Int) : Nat × Nat :=
  if 0 ≤ power then (numerator, denominator * Nat.pow 10 power.toNat)
  else (numerator * Nat.pow 10 (-power).toNat, denominator)

/-- The two neighbours of a fraction on the grid of multiples of `10 ^ power`, the nearer first;
of two equally near ones the even one comes first. -/
def neighbours (numerator denominator : Nat) (power : Int) : List Decimal :=
  let (top, bottom) := shifted numerator denominator power
  let below := top / bottom
  let twice := 2 * (top % bottom)
  if twice < bottom ∨ (twice = bottom ∧ below % 2 = 0) then [⟨below, power⟩, ⟨below + 1, power⟩]
  else [⟨below + 1, power⟩, ⟨below, power⟩]

/-- The shortest decimal with at most `budget` more digits that reads back as the given double. -/
def shortestFrom (value : Binary64) (numerator denominator : Nat) (leading : Int) :
    (count budget : Nat) → Decimal
  | count, 0 => (neighbours numerator denominator (leading - count)).headD ⟨0, 0⟩
  | count, budget + 1 =>
      match (neighbours numerator denominator (leading - count)).find?
          (fun candidate => candidate.toBinary64 false == value) with
      | some decimal => decimal
      | none => shortestFrom value numerator denominator leading (count + 1) budget

/-- The decimal without trailing zeros. -/
def trim (value : Decimal) : (budget : Nat) → Decimal
  | 0 => value
  | budget + 1 =>
      if value.digits % 10 = 0 ∧ value.digits ≠ 0 then
        trim ⟨value.digits / 10, value.exponent + 1⟩ budget
      else value

/-- The shortest decimal that reads back as a positive finite double. -/
def shortest (significand : Nat) (exponent : Int) : Decimal :=
  let (numerator, denominator) := ratio significand exponent
  trim (shortestFrom (.finite false significand exponent) numerator denominator
    (leadingExponent numerator denominator) 0 17) 20

/-- The decimal of at most `count` digits nearest to a positive finite double; a half goes up. -/
def nearest (significand : Nat) (exponent : Int) (count : Nat) : Decimal :=
  let (numerator, denominator) := ratio significand exponent
  let power := leadingExponent numerator denominator - (count - 1 : Nat)
  let (top, bottom) := shifted numerator denominator power
  trim ⟨(2 * top + bottom) / (2 * bottom), power⟩ 20

/-- How a format writes a decimal. -/
structure Layout where
  /-- The least exponent of the first digit that is written positionally. -/
  leastPositional : Int
  /-- The first exponent of the first digit that is written with a power of ten. -/
  firstScientific : Int
  /-- Whether a mantissa of one digit is written with a fraction of `.0`. -/
  pointInMantissa : Bool

/-- Writes `count` zeros. -/
def zeros (count : Nat) : String := String.ofList (List.replicate count '0')

/-- The exponent mark, with a sign and at least two digits. -/
def exponentText (exponent : Int) : String :=
  let digits := toString exponent.natAbs
  "e" ++ (if exponent < 0 then "-" else "+") ++ (if digits.length < 2 then "0" ++ digits else digits)

/-- Writes a positive decimal under a layout. -/
def write (layout : Layout) (value : Decimal) : String :=
  let digits := toString value.digits
  let leading : Int := value.exponent + digits.length - 1
  if layout.leastPositional ≤ leading ∧ leading < layout.firstScientific then
    if 0 ≤ value.exponent then digits ++ zeros value.exponent.toNat ++ ".0"
    else if 0 ≤ leading then
      let whole := (leading + 1).toNat
      String.ofList (digits.toList.take whole) ++ "." ++ String.ofList (digits.toList.drop whole)
    else "0." ++ zeros (-leading - 1).toNat ++ digits
  else
    let fraction := String.ofList (digits.toList.drop 1)
    String.ofList (digits.toList.take 1)
      ++ (if fraction.isEmpty then (if layout.pointInMantissa then ".0" else "") else "." ++ fraction)
      ++ exponentText leading

end Decimal

namespace Binary64

/-- Messages and answers write exponents from -4 to 15 positionally. -/
def messageLayout : Decimal.Layout := ⟨-4, 16, false⟩

/-- The text of a double in messages and answers. -/
def text : Binary64 → String
  | .nan _ => "nan"
  | .infinite negative => if negative then "-inf" else "inf"
  | .finite negative significand exponent =>
      (if negative then "-" else "") ++
        (if significand = 0 then "0.0"
         else (Decimal.shortest significand exponent).write messageLayout)

end Binary64

end ResourceServer
