import ResourceServer.Numeric.Binary64

/-!
# Extended precision numbers

Positive numbers with 64 binary digits and exponents without bounds. Every operation rounds its exact outcome to
the nearest such number, a tie going to the even significand.
-/

namespace ResourceServer

/-- A number `significand * 2 ^ exponent` with a significand of at most 64 binary digits. -/
structure Extended where
  significand : Nat
  exponent : Int := 0
deriving DecidableEq, Repr, Inhabited

namespace Extended

/-- The number nearest to `numerator / denominator * 2 ^ exponent`. -/
def ofRatio (numerator denominator : Nat) (exponent : Int) : Extended :=
  if numerator = 0 then ⟨0, 0⟩
  else
    let guess : Int := (Nat.log2 numerator : Int) - Nat.log2 denominator - 63
    let (scaledNumerator, scaledDenominator) := Binary64.scaleDown numerator denominator guess
    let shift := if scaledNumerator < scaledDenominator * Nat.pow 2 63 then guess - 1 else guess
    let (scaledNumerator, scaledDenominator) := Binary64.scaleDown numerator denominator shift
    ⟨Binary64.roundQuotient scaledNumerator scaledDenominator, exponent + shift⟩

/-- The magnitude of a finite double. -/
def ofDouble : Binary64 → Extended
  | .finite _ significand exponent => ⟨significand, exponent⟩
  | _ => ⟨0, 0⟩

/-- The double nearest to a number, with a sign. -/
def toDouble (negative : Bool) (value : Extended) : Binary64 :=
  Binary64.ofScaled negative value.significand value.exponent

/-- The product. -/
def mul (left right : Extended) : Extended :=
  ofRatio (left.significand * right.significand) 1 (left.exponent + right.exponent)

/-- The quotient by a number that is not zero. -/
def div (left right : Extended) : Extended :=
  ofRatio left.significand right.significand (left.exponent - right.exponent)

/-- The significands of two numbers under their lesser exponent. -/
def aligned (left right : Extended) : Nat × Nat × Int :=
  let least := min left.exponent right.exponent
  (left.significand * Nat.pow 2 (left.exponent - least).toNat,
    right.significand * Nat.pow 2 (right.exponent - least).toNat, least)

/-- The sum. -/
def add (left right : Extended) : Extended :=
  let (leftPart, rightPart, exponent) := aligned left right
  ofRatio (leftPart + rightPart) 1 exponent

/-- Whether a number is not greater than another one. -/
def isAtMost (left right : Extended) : Bool :=
  let (leftPart, rightPart, _) := aligned left right
  leftPart ≤ rightPart

/-- Whether a number is less than another one. -/
def isBelow (left right : Extended) : Bool := !right.isAtMost left

/-- The whole part and the rest, which needs no rounding. -/
def split (value : Extended) : Nat × Extended :=
  if 0 ≤ value.exponent then (value.significand * Nat.pow 2 value.exponent.toNat, ⟨0, 0⟩)
  else
    let unit := Nat.pow 2 (-value.exponent).toNat
    (value.significand / unit, ⟨value.significand % unit, value.exponent⟩)

/-- A power of ten, by squaring: the digits of its exponent from the lowest on decide which squares are
multiplied. -/
def powerOfTen (exponent : Nat) : Extended :=
  go ⟨1, 0⟩ ⟨10, 0⟩ exponent exponent
where
  /-- Goes on from a product, the next square and the digits that are left. -/
  go (product square : Extended) (digits : Nat) : (budget : Nat) → Extended
    | 0 => product
    | budget + 1 =>
        let product := if digits % 2 = 1 then product.mul square else product
        if digits / 2 = 0 then product else go product (square.mul square) (digits / 2) budget

end Extended

end ResourceServer
