/-!
# Double precision numbers in exact arithmetic

A finite double is a sign, a significand and a power of two, so comparing it with an integer, cutting
off its fraction and rounding a quotient to it are all computations on whole numbers. `ofRatio` rounds
to the nearest double, a tie going to the even significand, and `compareFinite` never rounds.
-/

namespace ResourceServer

/-- A double: `finite negative significand exponent` stands for `± significand * 2 ^ exponent`. A NaN is equal
to nothing, but its mark tells which one it is; the mark 0 belongs to no NaN in particular. -/
inductive Binary64
  | nan (mark : Nat)
  | infinite (negative : Bool)
  | finite (negative : Bool) (significand : Nat) (exponent : Int)
deriving DecidableEq, Repr, Inhabited

namespace Binary64

/-- Number of bits of a significand. -/
def precision : Nat := 53

/-- The least exponent a significand can carry. -/
def minExponent : Int := -1074

/-- The greatest exponent a full significand can carry. -/
def maxExponent : Int := 971

/-- The double zero. -/
def zero : Binary64 := .finite false 0 minExponent

/-- Divides and rounds to the nearest whole number, a half going to the even neighbour. -/
def roundQuotient (numerator denominator : Nat) : Nat :=
  let quotient := numerator / denominator
  let twice := 2 * (numerator % denominator)
  if twice < denominator then quotient
  else if denominator < twice then quotient + 1
  else if quotient % 2 = 0 then quotient else quotient + 1

/-- The fraction `numerator / denominator` divided by `2 ^ exponent`, as a new fraction. -/
def scaleDown (numerator denominator : Nat) (exponent : Int) : Nat × Nat :=
  if 0 ≤ exponent then (numerator, denominator * Nat.pow 2 exponent.toNat)
  else (numerator * Nat.pow 2 (-exponent).toNat, denominator)

/-- The exponent at which the quotient of two positive numbers has a significand of full length,
or the least exponent when the quotient is too small for that. -/
def exponentFor (numerator denominator : Nat) : Int :=
  let guess : Int := (Nat.log2 numerator : Int) - Nat.log2 denominator - 52
  let (scaledNumerator, scaledDenominator) := scaleDown numerator denominator guess
  let exact := if scaledNumerator < scaledDenominator * Nat.pow 2 52 then guess - 1 else guess
  max exact minExponent

/-- The double nearest to `± numerator / denominator`. -/
def ofRatio (negative : Bool) (numerator denominator : Nat) : Binary64 :=
  if numerator = 0 then .finite negative 0 minExponent
  else
    let exponent := exponentFor numerator denominator
    let (scaledNumerator, scaledDenominator) := scaleDown numerator denominator exponent
    let significand := roundQuotient scaledNumerator scaledDenominator
    let (significand, exponent) :=
      if significand = Nat.pow 2 precision then (Nat.pow 2 52, exponent + 1) else (significand, exponent)
    if maxExponent < exponent then .infinite negative
    else .finite negative significand exponent

/-- The double nearest to a whole number. -/
def ofInt (value : Int) : Binary64 := ofRatio (value < 0) value.natAbs 1

/-- Whether the number is not a number. -/
def isNaN : Binary64 → Bool
  | .nan _ => true
  | _ => false

/-- Whether two doubles are one and the same NaN. -/
def isSameNaN : Binary64 → Binary64 → Bool
  | .nan left, .nan right => left == right && left != 0
  | _, _ => false

/-- Whether the number is neither infinite nor NaN. -/
def isFinite : Binary64 → Bool
  | .finite .. => true
  | _ => false

/-- Whether the number is a zero of either sign. -/
def isZero : Binary64 → Bool
  | .finite _ 0 _ => true
  | _ => false

/-- The signed significand of a finite double. -/
def signed (negative : Bool) (significand : Nat) : Int :=
  if negative then -(significand : Int) else significand

/-- Compares `left * 2 ^ leftExponent` with `right * 2 ^ rightExponent` exactly. -/
def compareFinite (left : Int) (leftExponent : Int) (right : Int) (rightExponent : Int) : Ordering :=
  let least := min leftExponent rightExponent
  compare (left * Nat.pow 2 (leftExponent - least).toNat) (right * Nat.pow 2 (rightExponent - least).toNat)

/-- The order of two doubles; `none` when one of them is NaN. -/
def order? : Binary64 → Binary64 → Option Ordering
  | .nan _, _ => none
  | _, .nan _ => none
  | .infinite leftNegative, .infinite rightNegative =>
      some (if leftNegative = rightNegative then .eq else if leftNegative then .lt else .gt)
  | .infinite negative, .finite .. => some (if negative then .lt else .gt)
  | .finite .., .infinite negative => some (if negative then .gt else .lt)
  | .finite leftNegative left leftExponent, .finite rightNegative right rightExponent =>
      some (compareFinite (signed leftNegative left) leftExponent
        (signed rightNegative right) rightExponent)

/-- The order of a double against a whole number; nothing is rounded. -/
def orderInt? : Binary64 → Int → Option Ordering
  | .nan _, _ => none
  | .infinite negative, _ => some (if negative then .lt else .gt)
  | .finite negative significand exponent, value =>
      some (compareFinite (signed negative significand) exponent value 0)

/-! ## Arithmetic -/

/-- The double with the opposite sign. -/
def negate : Binary64 → Binary64
  | .nan _ => .nan 0
  | .infinite negative => .infinite (!negative)
  | .finite negative significand exponent => .finite (!negative) significand exponent

/-- The double nearest to `± significand * 2 ^ exponent`. -/
def ofScaled (negative : Bool) (significand : Nat) (exponent : Int) : Binary64 :=
  if 0 ≤ exponent then ofRatio negative (significand * Nat.pow 2 exponent.toNat) 1
  else ofRatio negative significand (Nat.pow 2 (-exponent).toNat)

/-- The sum of two doubles, rounded. -/
def add : Binary64 → Binary64 → Binary64
  | .nan _, _ => .nan 0
  | _, .nan _ => .nan 0
  | .infinite left, .infinite right => if left = right then .infinite left else .nan 0
  | .infinite negative, .finite .. => .infinite negative
  | .finite .., .infinite negative => .infinite negative
  | .finite leftNegative left leftExponent, .finite rightNegative right rightExponent =>
      let least := min leftExponent rightExponent
      let sum := signed leftNegative left * Nat.pow 2 (leftExponent - least).toNat
        + signed rightNegative right * Nat.pow 2 (rightExponent - least).toNat
      ofScaled (if sum = 0 then leftNegative && rightNegative else sum < 0) sum.natAbs least

/-- The product of two doubles, rounded. -/
def mul : Binary64 → Binary64 → Binary64
  | .nan _, _ => .nan 0
  | _, .nan _ => .nan 0
  | .infinite left, .infinite right => .infinite (left != right)
  | .infinite left, .finite right significand _ => if significand = 0 then .nan 0 else .infinite (left != right)
  | .finite left significand _, .infinite right => if significand = 0 then .nan 0 else .infinite (left != right)
  | .finite leftNegative left leftExponent, .finite rightNegative right rightExponent =>
      ofScaled (leftNegative != rightNegative) (left * right) (leftExponent + rightExponent)

/-! ## Whole numbers -/

/-- The whole part of a finite double, its fraction cut off. -/
def truncate? : Binary64 → Option Int
  | .finite negative significand exponent =>
      if 0 ≤ exponent then some (signed negative (significand * Nat.pow 2 exponent.toNat))
      else some (signed negative (significand / Nat.pow 2 (-exponent).toNat))
  | _ => none

/-- The whole number a double is equal to, if it is one. -/
def toInt? (value : Binary64) : Option Int :=
  match value.truncate? with
  | some whole => if value.orderInt? whole = some .eq then some whole else none
  | none => none

/-- The least whole number that is not below a finite double. -/
def ceiling? (value : Binary64) : Option Int :=
  match value.truncate? with
  | some whole => if value.orderInt? whole = some .gt then some (whole + 1) else some whole
  | none => none

end Binary64

end ResourceServer
