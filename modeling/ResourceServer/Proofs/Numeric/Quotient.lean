import Mathlib.Algebra.Order.Floor.Semifield
import Mathlib.Data.Rat.Floor
import Mathlib.Order.Bounds.Basic
import ResourceServer.Page
import ResourceServer.Proofs.Action
import ResourceServer.Proofs.Numeric.Rank

/-!
# The number of the last page

The last page is found by rounding twice: the quotient of total and page size is rounded to
a double, and the double to a whole number.  For a total of at most 53 binary digits the
double lies on the same side of every whole number as the exact quotient, or on the number
itself where the quotient does, so the first rounding makes no difference.
-/

namespace ResourceServer

namespace Binary64

/-! ## Rounding to a whole number -/

theorem roundQuotient_le {numerator denominator bound : Nat} (positive : 0 < denominator)
    (atMost : numerator ≤ bound * denominator) :
    roundQuotient numerator denominator ≤ bound := by
  have quotient : numerator / denominator ≤ bound := by
    rw [Nat.div_le_iff_le_mul_add_pred positive, mul_comm]
    omega
  have division := Nat.div_add_mod numerator denominator
  unfold roundQuotient
  obtain below | rfl := quotient.lt_or_eq
  · dsimp only
    split_ifs <;> omega
  · -- The division leaves nothing over, so nothing is added to the quotient.
    have rest : numerator % denominator = 0 := by
      rw [mul_comm] at division
      omega
    rw [rest]
    dsimp only
    rw [if_pos positive]

theorem lt_roundQuotient {numerator denominator bound : Nat} (positive : 0 < denominator)
    (above : (2 * bound + 1) * denominator < 2 * numerator) :
    bound < roundQuotient numerator denominator := by
  have division := Nat.div_add_mod numerator denominator
  have rest := Nat.mod_lt numerator positive
  have quotient : bound ≤ numerator / denominator := by
    rw [Nat.le_div_iff_mul_le positive]
    have expanded : (2 * bound + 1) * denominator = 2 * (bound * denominator) + denominator := by
      ring
    omega
  unfold roundQuotient
  obtain below | rfl := quotient.lt_or_eq
  · dsimp only
    split_ifs <;> omega
  · -- More than a half is left over.
    have half : denominator < 2 * (numerator % denominator) := by
      have expanded : (2 * (numerator / denominator) + 1) * denominator =
          2 * (denominator * (numerator / denominator)) + denominator := by
        ring
      omega
    dsimp only
    rw [if_neg (by omega), if_pos half]
    exact Nat.lt_succ_self _

/-! ## Rounding to a double -/

section Double

variable {numerator denominator : Nat}

theorem log2_le_of_lt (few : numerator < 2 ^ 53) : Nat.log2 numerator ≤ 52 := by
  by_cases none : numerator = 0
  · rw [none]
    decide
  · have := (Nat.log2_lt none).mpr few
    omega

theorem exponentFor_le (few : numerator < 2 ^ 53) :
    exponentFor numerator denominator ≤ max (-(Nat.log2 denominator : Int)) minExponent := by
  have digits : Nat.log2 numerator ≤ 52 := log2_le_of_lt few
  unfold exponentFor
  dsimp only
  refine max_le_max_right minExponent ?_
  split_ifs <;> omega

theorem exponentFor_nonpos (few : numerator < 2 ^ 53) : exponentFor numerator denominator ≤ 0 :=
  (exponentFor_le few).trans (max_le (by omega) (by decide))

/-- How many parts a whole is divided into when a quotient is rounded to a double: one for a
quotient of full length, and more for a shorter one. -/
def partsFor (numerator denominator : Nat) : Nat :=
  2 ^ (-exponentFor numerator denominator).toNat

/-- The parts are finer than the halves that the division by a number that is not greater can
leave over. -/
theorem lt_two_mul_partsFor (few : numerator < 2 ^ 53) (atMost : denominator ≤ numerator) :
    denominator < 2 * partsFor numerator denominator := by
  have short : Nat.log2 denominator ≤ 52 := log2_le_of_lt (atMost.trans_lt few)
  have small : exponentFor numerator denominator ≤ -(Nat.log2 denominator : Int) := by
    refine (exponentFor_le few).trans (max_le le_rfl ?_)
    unfold minExponent
    omega
  calc
    denominator < 2 ^ (Nat.log2 denominator + 1) := Nat.lt_log2_self
    _ ≤ 2 ^ ((-exponentFor numerator denominator).toNat + 1) :=
        Nat.pow_le_pow_right two_pos (by omega)
    _ = 2 * partsFor numerator denominator := by rw [partsFor, pow_succ, mul_comm]

theorem scaleDown_exponentFor (few : numerator < 2 ^ 53) :
    scaleDown numerator denominator (exponentFor numerator denominator) =
      (numerator * partsFor numerator denominator, denominator) := by
  have nonpos : exponentFor numerator denominator ≤ 0 := exponentFor_nonpos few
  unfold scaleDown partsFor
  split
  · have zero : exponentFor numerator denominator = 0 := by omega
    rw [zero]
    simp
  · rfl

/-- A significand that has grown by a digit stands for the same when it is halved under the next
exponent. -/
theorem carried {full half significand : Nat} {exponent greatest : Int} (negative : Bool)
    (halved : (half : ℚ) * (2 : ℚ) ^ (exponent + 1) = (full : ℚ) * (2 : ℚ) ^ exponent)
    (fits : exponent + 1 ≤ greatest) :
    ∃ carriedTo under,
      (let (significand, exponent) :=
          if significand = full then (half, exponent + 1) else (significand, exponent)
        if greatest < exponent then infinite negative
        else finite negative significand exponent) = finite negative carriedTo under ∧
      (carriedTo : ℚ) * (2 : ℚ) ^ under = (significand : ℚ) * (2 : ℚ) ^ exponent := by
  by_cases isFull : significand = full
  · refine ⟨half, exponent + 1, ?_, by rw [halved, isFull]⟩
    rw [if_pos isFull]
    exact if_neg (not_lt.mpr fits)
  · refine ⟨significand, exponent, ?_, rfl⟩
    rw [if_neg isFull]
    exact if_neg (not_lt.mpr (by omega))

theorem halved_eq (exponent : Int) :
    ((Nat.pow 2 52 : Nat) : ℚ) * (2 : ℚ) ^ (exponent + 1) =
      ((Nat.pow 2 precision : Nat) : ℚ) * (2 : ℚ) ^ exponent := by
  rw [Nat.pow_eq, Nat.pow_eq, precision, zpow_add_one₀ two_ne_zero]
  push_cast
  ring

/-- A quotient of few digits is rounded to a whole number of parts. -/
theorem ofRatio_parts (some : numerator ≠ 0) (few : numerator < 2 ^ 53) :
    ∃ significand exponent, ofRatio false numerator denominator = .finite false significand exponent ∧
      (significand : ℚ) * (2 : ℚ) ^ exponent =
        (roundQuotient (numerator * partsFor numerator denominator) denominator : ℚ) /
          partsFor numerator denominator := by
  have nonpos : exponentFor numerator denominator ≤ 0 := exponentFor_nonpos few
  have scaled : scaleDown numerator denominator (exponentFor numerator denominator) = _ :=
    scaleDown_exponentFor few
  have power : (2 : ℚ) ^ exponentFor numerator denominator =
      ((partsFor numerator denominator : Nat) : ℚ)⁻¹ := by
    rw [partsFor, Nat.cast_pow, ← zpow_natCast, Nat.cast_two, ← zpow_neg]
    congr 1
    omega
  rw [div_eq_mul_inv, ← power]
  unfold ofRatio
  rw [if_neg some]
  generalize exponentFor numerator denominator = exponent at nonpos scaled ⊢
  have fits : exponent + 1 ≤ maxExponent := by
    unfold maxExponent
    omega
  extract_lets same
  split
  rename_i isScaled
  cases scaled.symm.trans isScaled
  extract_lets significand
  have rounded : (roundQuotient (numerator * partsFor numerator denominator) denominator : ℚ) =
      significand := rfl
  rw [rounded]
  clear_value significand
  exact carried false (halved_eq exponent) fits

/-- The double next to a quotient of few digits is above the same positive whole numbers as the
quotient itself. -/
theorem ofRatio_le_iff (few : numerator < 2 ^ 53) (positive : 0 < denominator) :
    ∃ significand exponent, ofRatio false numerator denominator = .finite false significand exponent ∧
      ∀ bound : Nat, 1 ≤ bound →
        ((significand : ℚ) * (2 : ℚ) ^ exponent ≤ bound ↔ numerator ≤ bound * denominator) := by
  by_cases none : numerator = 0
  · refine ⟨0, minExponent, if_pos none, ?_⟩
    intro bound _
    simp [none]
  · obtain ⟨significand, exponent, rounded, value⟩ := ofRatio_parts none few
    refine ⟨significand, exponent, rounded, ?_⟩
    intro bound some
    have parts : 0 < partsFor numerator denominator := Nat.two_pow_pos _
    rw [value, div_le_iff₀ (Nat.cast_pos.mpr parts), ← Nat.cast_mul, Nat.cast_le]
    constructor
    · -- A quotient above the bound is above it by half a part.
      intro notAbove
      by_contra above
      have atMost : denominator ≤ numerator :=
        (Nat.le_mul_of_pos_left denominator some).trans (by omega)
      have fine := lt_two_mul_partsFor few atMost
      have next : (bound * denominator + 1) * partsFor numerator denominator ≤
          numerator * partsFor numerator denominator :=
        Nat.mul_le_mul_right _ (by omega)
      refine absurd (lt_roundQuotient positive ?_) (not_lt.mpr notAbove)
      calc
        (2 * (bound * partsFor numerator denominator) + 1) * denominator =
            2 * (bound * denominator * partsFor numerator denominator) + denominator := by ring
        _ < 2 * (bound * denominator * partsFor numerator denominator) +
            2 * partsFor numerator denominator := by omega
        _ = 2 * ((bound * denominator + 1) * partsFor numerator denominator) := by ring
        _ ≤ 2 * (numerator * partsFor numerator denominator) := by omega
    · intro atMost
      refine roundQuotient_le positive ?_
      calc
        numerator * partsFor numerator denominator ≤
            bound * denominator * partsFor numerator denominator := Nat.mul_le_mul_right _ atMost
        _ = bound * partsFor numerator denominator * denominator := by ring

end Double

/-- A double that is not negative is rounded upwards to the next whole number. -/
theorem ceiling?_finite (significand : Nat) (exponent : Int) :
    (finite false significand exponent).ceiling? =
      some ⌈(significand : ℚ) * (2 : ℚ) ^ exponent⌉ := by
  have rounds : ∀ whole : Nat, (whole : ℚ) ≤ (significand : ℚ) * (2 : ℚ) ^ exponent →
      (significand : ℚ) * (2 : ℚ) ^ exponent < whole + 1 →
        (if (finite false significand exponent).orderInt? whole = some .gt then
          some ((whole : Int) + 1) else some (whole : Int)) =
            some ⌈(significand : ℚ) * (2 : ℚ) ^ exponent⌉ := by
    intro whole notBelow below
    have order : (finite false significand exponent).orderInt? whole = some .gt ↔
        (whole : ℚ) < (significand : ℚ) * (2 : ℚ) ^ exponent := by
      rw [orderInt?_eq rfl, rank, Rank.compare_ofRat, Option.some_inj, compare_gt_iff_gt]
      rfl
    split
    · rename_i above
      rw [order] at above
      rw [Option.some_inj, eq_comm, Int.ceil_eq_iff]
      push_cast
      exact ⟨by linarith, below.le⟩
    · rename_i notAbove
      rw [order, not_lt] at notAbove
      rw [Option.some_inj, notAbove.antisymm notBelow, Int.ceil_natCast]
  unfold ceiling? truncate?
  dsimp only
  by_cases isWhole : 0 ≤ exponent
  · have value : (significand : ℚ) * (2 : ℚ) ^ exponent =
        ((significand * Nat.pow 2 exponent.toNat : Nat) : ℚ) := by
      rw [Nat.cast_mul, Nat.pow_eq, Nat.cast_pow, Nat.cast_two, ← zpow_natCast,
        Int.toNat_of_nonneg isWhole]
    rw [if_pos isWhole]
    refine rounds (significand * Nat.pow 2 exponent.toNat) value.ge ?_
    rw [value]
    exact lt_add_one _
  · have value : (significand : ℚ) * (2 : ℚ) ^ exponent =
        (significand : ℚ) / (Nat.pow 2 (-exponent).toNat : Nat) := by
      rw [Nat.pow_eq, Nat.cast_pow, Nat.cast_two, ← zpow_natCast,
        Int.toNat_of_nonneg (by omega), zpow_neg, div_inv_eq_mul]
    have whole : ⌊(significand : ℚ) / (Nat.pow 2 (-exponent).toNat : Nat)⌋₊ =
        significand / Nat.pow 2 (-exponent).toNat := Nat.floor_div_eq_div _ _
    rw [if_neg isWhole]
    refine rounds (significand / Nat.pow 2 (-exponent).toNat) ?_ ?_
    · rw [value, ← whole]
      exact Nat.floor_le (by positivity)
    · rw [value, ← whole]
      exact Nat.lt_floor_add_one _

end Binary64

namespace Page

theorem quotient_natCast {dividend divisor significand : Nat} {exponent : Int}
    (positive : 0 < divisor)
    (rounded : Binary64.ofRatio false dividend divisor = .finite false significand exponent) :
    quotient dividend divisor = .ok (.finite false significand exponent) := by
  have nonneg : ∀ number : Nat, decide ((number : Int) < 0) = false :=
    fun number => decide_eq_false (by omega)
  unfold quotient
  rw [if_neg (by omega), nonneg, nonneg, bne_self_eq_false, Int.natAbs_natCast,
    Int.natAbs_natCast, rounded]

/-- The last page is the first one that reaches to the end. -/
theorem lastPage_isLeast {page : Page} (counted : 0 ≤ page.total) (few : page.total < 2 ^ 53)
    (some : 1 ≤ page.perPage) :
    ∃ last, page.lastPage = .ok last ∧
      IsLeast {number | 1 ≤ number ∧ page.total ≤ number * page.perPage} last := by
  obtain ⟨items, total, number, perPage⟩ := page
  obtain ⟨total, rfl⟩ := Int.eq_ofNat_of_zero_le counted
  obtain ⟨perPage, rfl⟩ := Int.eq_ofNat_of_zero_le (Int.le_of_lt some)
  dsimp only at few some ⊢
  have numerator : total < 2 ^ 53 := by omega
  have denominator : 0 < perPage := by omega
  obtain ⟨significand, exponent, rounded, bounds⟩ := Binary64.ofRatio_le_iff numerator denominator
  refine ⟨max 1 ⌈(significand : ℚ) * (2 : ℚ) ^ exponent⌉, ?_, ?_⟩
  · unfold lastPage
    refine bind_eq_ok.mpr ⟨_, quotient_natCast denominator rounded, ?_⟩
    rw [Binary64.ceiling?_finite]
    rfl
  · have reaches : {number : Int | 1 ≤ number ∧ (total : Int) ≤ number * perPage} =
        Set.Ici (max 1 ⌈(significand : ℚ) * (2 : ℚ) ^ exponent⌉) := by
      ext number
      refine Iff.trans (and_congr_right fun some => ?_)
        (Set.mem_Ici.trans (max_le_iff.trans (and_congr_right fun _ => Int.ceil_le))).symm
      obtain ⟨bound, rfl⟩ := Int.eq_ofNat_of_zero_le (Int.le_of_lt some)
      rw [Int.cast_natCast, bounds bound (by omega), ← Int.natCast_mul, Int.ofNat_le]
    rw [reaches]
    exact isLeast_Ici

end Page

end ResourceServer
