import Mathlib.Data.List.TakeWhile
import ResourceServer.Request.Parameter

/-!
# Whole numbers in text

A text passes for a whole number when it consists of digits after any number of minus signs.  It is
one when there is at most one sign, every digit is a decimal digit and there are not too many of
them.
-/

namespace ResourceServer

namespace Text

variable {character : Char}

theorem inRanges_eq_true {ranges : List CodeRange} :
    inRanges ranges character = true ↔
      ∃ range ∈ ranges, range.1 ≤ character.toNat ∧ character.toNat ≤ range.2 := by
  simp [inRanges]

/-- The code points of the decimal digits. -/
def decimalRanges : List CodeRange := decimalZeros.map fun first => (first, first + 9)

theorem isSome_decimalValue? :
    (decimalValue? character).isSome = inRanges decimalRanges character := by
  rw [decimalValue?, Option.isSome_map, Bool.eq_iff_iff, List.find?_isSome, inRanges_eq_true,
    decimalRanges]
  simp

/-- Every code point of one list of ranges is apart from those of the other. -/
def areApart (first second : List CodeRange) : Bool :=
  first.all fun one => second.all fun other => one.2 < other.1 || other.2 < one.1

theorem inRanges_eq_false {first second : List CodeRange} (apart : areApart first second = true)
    (inFirst : inRanges first character = true) : inRanges second character = false := by
  rw [areApart] at apart
  refine Bool.eq_false_iff.mpr fun inSecond => ?_
  obtain ⟨one, memberOne, aboveOne, belowOne⟩ := inRanges_eq_true.mp inFirst
  obtain ⟨other, memberOther, aboveOther, belowOther⟩ := inRanges_eq_true.mp inSecond
  have isApart := List.all_eq_true.mp (List.all_eq_true.mp apart one memberOne) other memberOther
  simp only [Bool.or_eq_true, decide_eq_true_eq] at isApart
  omega

/-- No digit is blank. -/
theorem isBlank_of_isDigit (digit : isDigit character = true) : isBlank character = false := by
  rw [isDigit, isSome_decimalValue?, Bool.or_eq_true] at digit
  obtain isDecimal | isOther := digit
  · exact inRanges_eq_false (by decide) isDecimal
  · exact inRanges_eq_false (by decide) isOther

/-- A digit is none of the signs and marks that are no digits. -/
theorem ne_of_isDigit {digit mark : Char} (isDigit : isDigit digit = true)
    (noDigit : Text.isDigit mark = false) : digit ≠ mark := by
  rintro rfl
  rw [isDigit] at noDigit
  cases noDigit

/-- Nothing is removed from a text without such characters. -/
theorem trimBy_eq_self {isOuter : Char → Bool} {text : String}
    (inner : ∀ character ∈ text.toList, isOuter character = false) :
    trimBy isOuter text = text := by
  have stays : ∀ characters : List Char, (∀ character ∈ characters, isOuter character = false) →
      characters.dropWhile isOuter = characters := by
    intro characters inner
    rw [List.dropWhile_eq_self_iff]
    intro nonempty
    rw [inner _ (List.getElem_mem _)]
    exact Bool.false_ne_true
  rw [trimBy, stays _ inner, stays, List.reverse_reverse, String.ofList_toList]
  intro character member
  exact inner character (List.mem_reverse.mp member)

theorem trimNumeral_eq_self {text : String}
    (inner : ∀ character ∈ text.toList, isBlank character = false) :
    trimNumeral text = text := by
  unfold trimNumeral
  split
  · refine trimBy_eq_self fun character member => ?_
    rw [isPadding, inner character member, Bool.false_and]
  · exact trimBy_eq_self inner

end Text

namespace Numeral

/-- Digits are read to their end when all of them are decimal digits, and only then. -/
theorem readDigits_digits {characters : List Char}
    (digits : ∀ character ∈ characters, Text.isDigit character = true) :
    ((readDigits characters).2 = [] ↔
        ∀ character ∈ characters, (Text.decimalValue? character).isSome = true) ∧
      ((readDigits characters).2 = [] → (readDigits characters).1.length = characters.length) := by
  induction characters with
  | nil => simp [readDigits]
  | cons character rest induction =>
      rw [List.forall_mem_cons] at digits
      have isRead := readDigits.eq_3 character rest fun _ _ same =>
        absurd same (Text.ne_of_isDigit digits.1 (by decide))
      obtain ⟨readIff, lengths⟩ := induction digits.2
      cases isDecimal : Text.decimalValue? character with
      | none =>
          rw [isDecimal] at isRead
          simp [isRead, isDecimal]
      | some digit =>
          rw [isDecimal] at isRead
          simpa [isRead, isDecimal] using ⟨readIff, lengths⟩

theorem readNumber_eq {characters : List Char}
    (noUnderscore : ∀ rest, characters ≠ '_' :: rest) :
    readNumber characters = readDigits characters := by
  unfold readNumber
  split
  · rename_i rest
    exact absurd rfl (noUnderscore rest)
  · rfl

/-- After its sign, a whole number consists of digits to the end, and not too many of them. -/
theorem readInt_unsigned {text : String} {negative : Bool} {characters : List Char}
    (split : splitSign (Text.trimNumeral text).toList = (negative, characters)) :
    (∃ number, readInt text = .ok number) ↔
      (readNumber characters).1 ≠ [] ∧ (readNumber characters).2 = [] ∧
        (readNumber characters).1.length ≤ digitLimit := by
  unfold readInt
  rw [split]
  dsimp only
  split
  · rename_i fails
    refine iff_of_false nofun ?_
    rintro ⟨some, toEnd, _⟩
    simp [some, toEnd] at fails
  · rename_i whole
    rw [Bool.not_eq_true, Bool.or_eq_false_iff, List.isEmpty_eq_false_iff,
      Bool.not_eq_false', List.isEmpty_iff] at whole
    split
    · rename_i tooLong
      exact iff_of_false nofun fun ⟨_, _, short⟩ => absurd short (Nat.not_le.mpr tooLong)
    · rename_i short
      exact iff_of_true ⟨_, rfl⟩ ⟨whole.1, whole.2, Nat.not_lt.mp short⟩

/-- Digits after signs spell a whole number when there is at most one sign, every digit is a decimal
digit and there are not too many of them. -/
theorem readInt_signed {text : String} {signs digits : List Char}
    (isText : text.toList = signs ++ digits) (areSigns : ∀ sign ∈ signs, sign = '-')
    (nonempty : digits ≠ []) (areDigits : ∀ digit ∈ digits, Text.isDigit digit = true) :
    (∃ number, readInt text = .ok number) ↔
      signs.length ≤ 1 ∧ (∀ digit ∈ digits, (Text.decimalValue? digit).isSome = true) ∧
        digits.length ≤ digitLimit := by
  have trimmed : Text.trimNumeral text = text := by
    refine Text.trimNumeral_eq_self fun character member => ?_
    rw [isText, List.mem_append] at member
    cases member with
    | inl isSign =>
        rw [areSigns character isSign]
        decide
    | inr isDigit => exact Text.isBlank_of_isDigit (areDigits character isDigit)
  obtain ⟨readIff, lengths⟩ := readDigits_digits areDigits
  have readable : ((readNumber digits).1 ≠ [] ∧ (readNumber digits).2 = [] ∧
      (readNumber digits).1.length ≤ digitLimit) ↔
        (∀ digit ∈ digits, (Text.decimalValue? digit).isSome = true) ∧
          digits.length ≤ digitLimit := by
    rw [readNumber_eq, ← readIff]
    · constructor
      · rintro ⟨_, toEnd, short⟩
        exact ⟨toEnd, lengths toEnd ▸ short⟩
      · rintro ⟨toEnd, short⟩
        refine ⟨?_, toEnd, (lengths toEnd).symm ▸ short⟩
        intro none
        have noDigits := lengths toEnd
        rw [none] at noDigits
        exact nonempty (List.eq_nil_of_length_eq_zero noDigits.symm)
    · rintro rest rfl
      exact Text.ne_of_isDigit (areDigits _ List.mem_cons_self) (by decide) rfl
  obtain ⟨first, rest, rfl⟩ := List.exists_cons_of_ne_nil nonempty
  have isDigit := areDigits first List.mem_cons_self
  match signs, areSigns with
  | [], _ =>
      have split : splitSign (Text.trimNumeral text).toList = (false, first :: rest) := by
        rw [trimmed, isText, List.nil_append]
        unfold splitSign
        split
        · rename_i same
          exact absurd (List.cons.inj same).1 (Text.ne_of_isDigit isDigit (by decide))
        · rename_i same
          exact absurd (List.cons.inj same).1 (Text.ne_of_isDigit isDigit (by decide))
        · rfl
      rw [readInt_unsigned split, readable]
      simp
  | [sign], areSigns =>
      have split : splitSign (Text.trimNumeral text).toList = (true, first :: rest) := by
        rw [trimmed, isText, areSigns sign List.mem_cons_self]
        rfl
      rw [readInt_unsigned split, readable]
      simp
  | sign :: second :: signs, areSigns =>
      have split : splitSign (Text.trimNumeral text).toList =
          (true, '-' :: (signs ++ first :: rest)) := by
        rw [trimmed, isText, areSigns sign (by simp), areSigns second (by simp)]
        rfl
      have isMinus : ∀ more, '-' :: (signs ++ first :: rest) ≠ '_' :: more :=
        fun _ same => absurd (List.cons.inj same).1 (by decide)
      rw [readInt_unsigned split, readNumber_eq isMinus]
      refine iff_of_false ?_ fun ⟨few, _⟩ => by simp at few
      rintro ⟨some, _⟩
      exact some rfl

end Numeral

end ResourceServer
