import Mathlib.Data.Int.Interval
import Mathlib.Data.Fintype.Pigeonhole
import ResourceServer.Proofs.Memory.Change
import ResourceServer.Proofs.Value.Order

/-!
# Keys of a table

Keys that coincide with one key coincide with each other, also when a NaN is among them.  A
whole number coincides with no other one, so a table of n rows uses at most n of any n + 1
whole numbers, and the search for a free key ends within them.
-/

namespace ResourceServer

namespace Value

/-- Only the same NaN is found where a NaN is looked for. -/
theorem coincides_nan {value : Value} {mark : Nat}
    (coincide : value.coincides (.float (.nan mark)) = true) : value = .float (.nan mark) := by
  have unequal : ∀ left : Number, sameAsNumber left (.float (.nan mark)) = false := by
    intro left
    simp only [sameAsNumber, number?, sameNumber]
    rw [Number.order?_eq_none rfl]
    rfl
  cases value with
  | float double =>
      rw [coincides, same, unequal, Bool.or_false, isSameNaN] at coincide
      cases double with
      | nan other =>
          rw [Binary64.isSameNaN, Bool.and_eq_true, beq_iff_eq] at coincide
          rw [coincide.1]
      | infinite negative => cases coincide
      | finite negative significand exponent => cases coincide
  | bool flag =>
      rw [coincides, same, unequal] at coincide
      cases coincide
  | int number =>
      rw [coincides, same, unequal] at coincide
      cases coincide
  | null => cases coincide
  | text text => cases coincide
  | moment moment => cases coincide
  | list items => cases coincide
  | object members => cases coincide

theorem nan_coincides {mark : Nat} {other : Value}
    (coincide : coincides (.float (.nan mark)) other = true) : other = .float (.nan mark) := by
  cases other with
  | float double =>
      cases double with
      | nan right =>
          rw [coincides_nan coincide]
      | infinite negative => cases coincide
      | finite negative significand exponent => cases coincide
  | _ => cases coincide

/-- A key is NaN or orderly. -/
theorem isKey_cases {key : Value} (isKey : key.isKey = true) :
    (∃ mark, key = .float (.nan mark)) ∨ key.Orderly := by
  cases key with
  | null => exact .inr .null
  | bool flag => exact .inr (.number rfl rfl)
  | int number => exact .inr (.number rfl rfl)
  | float double =>
      cases double with
      | nan mark => exact .inl ⟨mark, rfl⟩
      | infinite negative => exact .inr (.number rfl rfl)
      | finite negative significand exponent => exact .inr (.number rfl rfl)
  | text text => exact .inr (.text text)
  | moment moment => exact .inr (.moment moment)
  | list items => cases isKey
  | object members => cases isKey

theorem isKey_of_coincides {value key : Value} (isKey : key.isKey = true)
    (coincide : value.coincides key = true) : value.isKey = true := by
  cases value with
  | list items =>
      obtain ⟨others, rfl, _⟩ := list_coincides.mp coincide
      cases isKey
  | object members =>
      obtain ⟨others, rfl, _⟩ := object_coincides.mp coincide
      cases isKey
  | _ => rfl

/-- What coincides with a key coincides with all keys that this one coincides with. -/
theorem coincides_trans_of_isKey {value key other : Value} (isKey : key.isKey = true)
    (otherKey : other.isKey = true) (first : value.coincides key = true)
    (second : key.coincides other = true) : value.coincides other = true := by
  obtain ⟨mark, rfl⟩ | orderly := isKey_cases isKey
  · rw [coincides_nan first]
    exact second
  · obtain ⟨mark, rfl⟩ | valueOrderly := isKey_cases (isKey_of_coincides isKey first)
    · rw [← nan_coincides first]
      exact second
    · obtain ⟨mark, rfl⟩ | otherOrderly := isKey_cases otherKey
      · rw [← coincides_nan second]
        exact first
      · exact valueOrderly.coincides_trans orderly otherOrderly first second

/-- Keys that coincide with one key coincide with each other. -/
theorem coincides_of_common {left right key : Value} (leftKey : left.isKey = true)
    (rightKey : right.isKey = true) (isKey : key.isKey = true)
    (first : left.coincides key = true) (second : right.coincides key = true) :
    left.coincides right = true := by
  obtain ⟨mark, rfl⟩ | orderly := isKey_cases isKey
  · rw [coincides_nan second]
    exact first
  · have orderlyOf : ∀ value : Value, value.isKey = true → value.coincides key = true →
        value.Orderly := by
      intro value valueKey coincide
      obtain ⟨mark, rfl⟩ | valueOrderly := isKey_cases valueKey
      · rw [← nan_coincides coincide]
        exact orderly
      · exact valueOrderly
    have leftOrderly := orderlyOf left leftKey first
    have rightOrderly := orderlyOf right rightKey second
    rw [leftOrderly.coincides_left orderly rightOrderly first]
    exact rightOrderly.coincides_symm orderly second

theorem coincides_int_inj {value : Value} {first second : Int}
    (coincideFirst : value.coincides (.int first) = true)
    (coincideSecond : value.coincides (.int second) = true) : first = second := by
  have isKey : value.isKey = true := by
    cases value with
    | list items => cases coincideFirst
    | object members => cases coincideFirst
    | _ => rfl
  have orderly : value.Orderly := by
    obtain ⟨mark, rfl⟩ | orderly := isKey_cases isKey
    · cases nan_coincides coincideFirst
    · exact orderly
  have firstOrderly : (Value.int first).Orderly := .number rfl rfl
  have coincide := coincideSecond
  rw [orderly.coincides_left firstOrderly (.number rfl rfl) coincideFirst] at coincide
  obtain ⟨number, counts, _, sameRank⟩ := (number_coincides rfl rfl).mp coincide
  cases counts
  exact Number.rank_whole.mp sameRank

end Value

namespace Table

/-- Among one more whole numbers than a table has rows, one is unused. -/
theorem exists_free (table : Table) (start : Int) :
    ∃ offset : Nat, offset ≤ table.length ∧ table.hasKey (.int (start + offset)) = false := by
  by_contra allUsed
  simp only [not_exists, not_and, Bool.not_eq_false] at allUsed
  have place : ∀ offset : Fin (table.length + 1), ∃ index : Fin table.length,
      (table.get index).1.coincides (.int (start + offset)) = true := by
    intro offset
    have used := allUsed offset (Nat.lt_succ_iff.mp offset.isLt)
    obtain ⟨entry, member, coincide⟩ := List.any_eq_true.mp used
    obtain ⟨index, isEntry⟩ := List.get_of_mem member
    exact ⟨index, isEntry ▸ coincide⟩
  choose index coincide using place
  obtain ⟨first, second, different, sameIndex⟩ :=
    Fintype.exists_ne_map_eq_of_card_lt index (by simp)
  have sameKey := coincide first
  rw [sameIndex] at sameKey
  have sameNumber := Value.coincides_int_inj sameKey (coincide second)
  exact different (Fin.ext (by omega))

/-- The search for a free key finds the first unused whole number when there is one within its
budget. -/
theorem freeKey_spec (table : Table) (start : Int) {budget : Nat}
    (free : ∃ offset : Nat, offset ≤ budget ∧ table.hasKey (.int (start + offset)) = false) :
    table.hasKey (.int (table.freeKey start budget)) = false ∧
      start ≤ table.freeKey start budget ∧
      ∀ number, start ≤ number → number < table.freeKey start budget →
        table.hasKey (.int number) = true := by
  induction budget generalizing start with
  | zero =>
      obtain ⟨offset, within, unused⟩ := free
      obtain rfl : offset = 0 := Nat.le_zero.mp within
      simp only [Nat.cast_zero, add_zero] at unused
      refine ⟨unused, le_refl _, ?_⟩
      intro number above below
      exact absurd below (not_lt.mpr above)
  | succ budget induction =>
      rw [freeKey]
      split
      · rename_i used
        obtain ⟨offset, within, unused⟩ := free
        have later : ∃ offset : Nat, offset ≤ budget ∧
            table.hasKey (.int (start + 1 + offset)) = false := by
          cases offset with
          | zero =>
              simp only [Nat.cast_zero, add_zero] at unused
              rw [used] at unused
              cases unused
          | succ offset =>
              refine ⟨offset, Nat.succ_le_succ_iff.mp within, ?_⟩
              rw [Nat.cast_succ] at unused
              rwa [add_assoc, add_comm 1]
        obtain ⟨isFree, above, first⟩ := induction (start + 1) later
        refine ⟨isFree, by omega, ?_⟩
        intro number from_start below
        by_cases same : number = start
        · rwa [same]
        · exact first number (by omega) below
      · rename_i unused
        refine ⟨by simpa using unused, le_refl _, ?_⟩
        intro number above below
        exact absurd below (not_lt.mpr above)

end Table

end ResourceServer
