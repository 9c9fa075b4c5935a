import Mathlib.Algebra.Order.Field.Basic
import Mathlib.Algebra.Order.Field.Power
import Mathlib.Data.Rat.Cast.Order
import Mathlib.Order.Compare
import Mathlib.Order.WithBot
import ResourceServer.Value

/-!
# Exact order of numbers

Whole numbers and doubles are compared as the rational numbers they stand for, with an
infinity at either end.  So apart from NaN their order is a linear one, whichever kinds of
numbers meet.
-/

namespace ResourceServer

/-- The rational numbers between two infinities. -/
abbrev Rank := WithBot (WithTop ℚ)

namespace Rank

def ofRat (value : ℚ) : Rank := ((value : WithTop ℚ) : WithBot (WithTop ℚ))

theorem ofRat_strictMono : StrictMono ofRat := WithBot.coe_strictMono.comp WithTop.coe_strictMono

theorem compare_ofRat (left right : ℚ) :
    compare (ofRat left) (ofRat right) = compare left right := by
  rw [← cmp_eq_compare, ← cmp_eq_compare, ofRat_strictMono.cmp_map_eq]

end Rank

namespace Binary64

/-- Where a double stands among the rational numbers and the two infinities. -/
def rank : Binary64 → Rank
  | .nan _ => ⊥
  | .infinite negative => if negative then ⊥ else ⊤
  | .finite negative significand exponent =>
      .ofRat ((signed negative significand : ℚ) * (2 : ℚ) ^ exponent)

private theorem scale_down (value : Int) {least exponent : Int} (below : least ≤ exponent) :
    (value : ℚ) * (2 : ℚ) ^ exponent =
      ((value * Nat.pow 2 (exponent - least).toNat : Int) : ℚ) * (2 : ℚ) ^ least := by
  obtain ⟨difference, same⟩ := Int.le.dest below
  subst same
  have shift : (least + (difference : Int) - least).toNat = difference := by omega
  rw [shift, zpow_add₀ two_ne_zero, zpow_natCast, Nat.pow_eq]
  push_cast
  rw [mul_assoc, mul_comm ((2 : ℚ) ^ least)]

/-- Finite doubles are compared as the rational numbers they stand for. -/
theorem compareFinite_eq (left leftExponent right rightExponent : Int) :
    compareFinite left leftExponent right rightExponent =
      compare ((left : ℚ) * (2 : ℚ) ^ leftExponent) ((right : ℚ) * (2 : ℚ) ^ rightExponent) := by
  rw [scale_down left (min_le_left leftExponent rightExponent),
    scale_down right (min_le_right leftExponent rightExponent)]
  have positive : (0 : ℚ) < (2 : ℚ) ^ (min leftExponent rightExponent) := zpow_pos two_pos _
  rw [← cmp_eq_compare, cmp_mul_pos_right positive, Int.cast_strictMono.cmp_map_eq, cmp_eq_compare]
  rfl

theorem order?_eq {left right : Binary64} (leftNumber : left.isNaN = false)
    (rightNumber : right.isNaN = false) :
    left.order? right = some (compare left.rank right.rank) := by
  cases left with
  | nan mark => cases leftNumber
  | infinite leftNegative =>
      cases right with
      | nan mark => cases rightNumber
      | infinite rightNegative => cases leftNegative <;> cases rightNegative <;> rfl
      | finite rightNegative right rightExponent => cases leftNegative <;> rfl
  | finite leftNegative left leftExponent =>
      cases right with
      | nan mark => cases rightNumber
      | infinite rightNegative => cases rightNegative <;> rfl
      | finite rightNegative right rightExponent =>
          rw [order?, compareFinite_eq, rank, rank, Rank.compare_ofRat]

theorem orderInt?_eq {left : Binary64} (leftNumber : left.isNaN = false) (right : Int) :
    left.orderInt? right = some (compare left.rank (.ofRat right)) := by
  cases left with
  | nan mark => cases leftNumber
  | infinite leftNegative => cases leftNegative <;> rfl
  | finite leftNegative left leftExponent =>
      rw [orderInt?, compareFinite_eq, rank, Rank.compare_ofRat, zpow_zero, mul_one]

end Binary64

namespace Value.Number

/-- Where a number stands among the rational numbers and the two infinities. -/
def rank : Number → Rank
  | .whole value => .ofRat value
  | .double value => value.rank

def isNaN : Number → Bool
  | .whole _ => false
  | .double value => value.isNaN

theorem rank_whole {left right : Int} : (whole left).rank = (whole right).rank ↔ left = right := by
  rw [rank, rank, Rank.ofRat_strictMono.injective.eq_iff, Int.cast_inj]

/-- Numbers are compared as the rational numbers they stand for. -/
theorem order?_eq {left right : Number} (leftNumber : left.isNaN = false)
    (rightNumber : right.isNaN = false) :
    left.order? right = some (compare left.rank right.rank) := by
  cases left with
  | whole left =>
      cases right with
      | whole right =>
          rw [order?, rank, rank, Rank.compare_ofRat, ← cmp_eq_compare (left : ℚ),
            Int.cast_strictMono.cmp_map_eq, cmp_eq_compare]
      | double right =>
          rw [order?, Binary64.orderInt?_eq rightNumber, Option.map_some, rank, rank,
            ← Std.OrientedCmp.eq_swap]
  | double left =>
      cases right with
      | whole right => exact Binary64.orderInt?_eq leftNumber right
      | double right => exact Binary64.order?_eq leftNumber rightNumber

end Value.Number
end ResourceServer
