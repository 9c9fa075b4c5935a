import Mathlib.Data.List.Forall2
import Mathlib.Data.List.Infix
import ResourceServer.Filter.Search

/-!
# The language of patterns

A pattern covers a text when the text can be cut into pieces, one for each character of the
pattern, and each piece is one that its character stands for.  The matcher does not cut: it keeps
the texts that may remain behind what it has read of the pattern, and after a percent sign only
looks at the longest of them.  That is enough because each of these texts ends the ones before it.
At the end the matcher is content when nothing remains, or nothing but one line break.

A search wraps its text in percent signs and matches the outcome as a pattern.  Where the text has
no wildcard of its own, each of its characters stands for a single one, so the pattern covers the
texts that hold a run of such characters anywhere.  When case matters, that run is the text itself:
a search is found in exactly the records that have a field whose text contains it.
-/

namespace ResourceServer.Filter

/-! ## Cutting a text -/

/-- The pieces that a pattern character stands for: a percent sign for any, an underscore for any
single character, and every other character for the single characters that `accepts` allows. -/
inductive StandsFor (accepts : Char → Char → Bool) : Char → List Char → Prop
  | percent (piece : List Char) : StandsFor accepts '%' piece
  | underscore (actual : Char) : StandsFor accepts '_' [actual]
  | letter {expected actual : Char} (notPercent : expected ≠ '%') (notUnderscore : expected ≠ '_')
      (accepted : accepts expected actual = true) : StandsFor accepts expected [actual]

/-- A pattern covers a text that consists of pieces for which its characters stand, in order. -/
def Covers (accepts : Char → Char → Bool) (pattern text : List Char) : Prop :=
  ∃ pieces, List.Forall₂ (StandsFor accepts) pattern pieces ∧ pieces.flatten = text

section Cutting

variable {accepts others : Char → Char → Bool} {expected : Char} {pattern piece text : List Char}

/-- A character that is no percent sign stands for single characters. -/
theorem standsFor_iff (notPercent : expected ≠ '%') :
    StandsFor accepts expected piece ↔
      ∃ actual, piece = [actual] ∧ (expected = '_' ∨ accepts expected actual = true) := by
  constructor
  · intro stands
    cases stands with
    | percent => exact absurd rfl notPercent
    | underscore actual => exact ⟨actual, rfl, .inl rfl⟩
    | @letter _ actual _ _ accepted => exact ⟨actual, rfl, .inr accepted⟩
  · intro ⟨actual, isSingle, accepted⟩
    subst isSingle
    by_cases isUnderscore : expected = '_'
    · subst isUnderscore
      exact .underscore actual
    · exact .letter notPercent isUnderscore (accepted.resolve_left isUnderscore)

@[simp] theorem covers_nil : Covers accepts [] text ↔ text = [] := by
  simp [Covers, eq_comm]

theorem covers_cons :
    Covers accepts (expected :: pattern) text ↔
      ∃ piece rest, StandsFor accepts expected piece ∧ Covers accepts pattern rest ∧
        piece ++ rest = text := by
  constructor
  · intro ⟨pieces, each, flat⟩
    cases each with
    | @cons _ piece _ pieces stands each => exact ⟨piece, _, stands, ⟨pieces, each, rfl⟩, flat⟩
  · intro ⟨piece, rest, stands, ⟨pieces, each, isRest⟩, isText⟩
    exact ⟨piece :: pieces, .cons stands each, by simp [isRest, isText]⟩

/-- A pattern that ends in a percent sign goes on covering a text that is longer. -/
theorem Covers.beyond (covers : Covers accepts pattern text) (last : pattern.getLast? = some '%')
    (more : List Char) : Covers accepts pattern (text ++ more) := by
  induction pattern generalizing text with
  | nil => simp at last
  | cons expected pattern induction =>
      obtain ⟨piece, rest, stands, coversRest, rfl⟩ := covers_cons.mp covers
      rw [List.append_assoc]
      cases pattern with
      | nil =>
          obtain rfl : expected = '%' := by simpa using last
          have nothing := covers_nil.mp coversRest
          subst nothing
          exact covers_cons.mpr ⟨piece ++ more, [], .percent _, covers_nil.mpr rfl, by simp⟩
      | cons following pattern =>
          rw [List.getLast?_cons_cons] at last
          exact covers_cons.mpr ⟨piece, rest ++ more, stands, induction coversRest last, rfl⟩

/-- What a pattern covers depends on how its characters accept those of the text. -/
theorem Covers.congr (alike : ∀ expected ∈ pattern, ∀ actual ∈ text,
      accepts expected actual = others expected actual) (covers : Covers accepts pattern text) :
    Covers others pattern text := by
  induction pattern generalizing text with
  | nil => exact covers_nil.mpr (covers_nil.mp covers)
  | cons expected pattern induction =>
      obtain ⟨piece, rest, stands, coversRest, rfl⟩ := covers_cons.mp covers
      simp only [List.forall_mem_cons, List.forall_mem_append] at alike
      refine covers_cons.mpr ⟨piece, rest, ?_, ?_, rfl⟩
      · cases stands with
        | percent => exact .percent piece
        | underscore actual => exact .underscore actual
        | letter notPercent notUnderscore accepted =>
            apply StandsFor.letter notPercent notUnderscore
            rw [← alike.1.1 _ (by simp)]
            exact accepted
      · apply induction _ coversRest
        exact fun expected isExpected => (alike.2 expected isExpected).2

end Cutting

/-! ## The matcher -/

section Matcher

variable {accepts : Char → Char → Bool} {pattern text rest : List Char} {texts : List (List Char)}

/-- Each of several texts ends the ones before it. -/
def Nested (texts : List (List Char)) : Prop := texts.Pairwise fun longer shorter => shorter <:+ longer

theorem mem_remainders : rest ∈ remainders text ↔ rest <:+ text := by
  induction text with
  | nil => simp [remainders]
  | cons character text induction => simp [remainders, induction, List.suffix_cons_iff]

theorem nested_remainders (text : List Char) : Nested (remainders text) := by
  induction text with
  | nil => simp [remainders, Nested]
  | cons character text induction =>
      rw [remainders, Nested, List.pairwise_cons]
      refine ⟨fun rest member => ?_, induction⟩
      exact (mem_remainders.mp member).trans (List.suffix_cons character text)

theorem afterOne?_eq_some {expected : Char} :
    afterOne? accepts expected text = some rest ↔
      ∃ actual, text = actual :: rest ∧ (expected = '_' ∨ accepts expected actual = true) := by
  cases text with
  | nil => simp [afterOne?]
  | cons actual text =>
      rw [afterOne?]
      split
      · rename_i accepted
        simp [accepted]
      · rename_i refused
        simp [refused]

theorem Nested.afterOne (nested : Nested texts) (expected : Char) :
    Nested (texts.filterMap (afterOne? accepts expected)) := by
  rw [Nested, List.pairwise_filterMap]
  refine nested.imp fun ends longer isLonger shorter isShorter => ?_
  obtain ⟨first, rfl, _⟩ := afterOne?_eq_some.mp isLonger
  obtain ⟨second, rfl, _⟩ := afterOne?_eq_some.mp isShorter
  rcases List.suffix_cons_iff.mp ends with same | ends
  · rw [(List.cons.inj same).2]
  · exact (List.suffix_cons second shorter).trans ends

/-- What may remain behind a pattern: the endings of the texts behind what the pattern covers. -/
theorem mem_remainingAfter (nested : Nested texts) :
    rest ∈ remainingAfter accepts pattern texts ↔
      ∃ taken, Covers accepts pattern taken ∧ taken ++ rest ∈ texts := by
  induction pattern generalizing texts with
  | nil => simp [remainingAfter]
  | cons expected pattern induction =>
      rw [remainingAfter]
      by_cases isPercent : expected = '%'
      · -- Every ending of a text is an ending of the longest one.
        subst isPercent
        rw [if_pos rfl]
        cases texts with
        | nil => simp
        | cons longest texts =>
            simp only [List.head?_cons, induction (nested_remainders longest), mem_remainders]
            constructor
            · intro ⟨taken, covers, ⟨piece, isLongest⟩⟩
              refine ⟨piece ++ taken, covers_cons.mpr ⟨piece, taken, .percent piece, covers, rfl⟩, ?_⟩
              rw [List.append_assoc, isLongest]
              exact List.mem_cons_self
            · intro ⟨taken, covers, member⟩
              obtain ⟨piece, others, _, coversOthers, rfl⟩ := covers_cons.mp covers
              refine ⟨others, coversOthers, ?_⟩
              rw [List.append_assoc] at member
              apply (List.suffix_append piece (others ++ rest)).trans
              rcases List.mem_cons.mp member with same | later
              · rw [same]
              · exact (List.pairwise_cons.mp nested).1 _ later
      · rw [if_neg isPercent, induction (nested.afterOne expected)]
        constructor
        · intro ⟨taken, covers, member⟩
          obtain ⟨text, isText, after⟩ := List.mem_filterMap.mp member
          obtain ⟨actual, rfl, accepted⟩ := afterOne?_eq_some.mp after
          have stands := (standsFor_iff isPercent).mpr ⟨actual, rfl, accepted⟩
          exact ⟨actual :: taken, covers_cons.mpr ⟨[actual], taken, stands, covers, rfl⟩, isText⟩
        · intro ⟨taken, covers, member⟩
          obtain ⟨piece, others, stands, coversOthers, rfl⟩ := covers_cons.mp covers
          obtain ⟨actual, rfl, accepted⟩ := (standsFor_iff isPercent).mp stands
          refine ⟨others, coversOthers, List.mem_filterMap.mpr ⟨_, member, ?_⟩⟩
          exact afterOne?_eq_some.mpr ⟨actual, rfl, accepted⟩

/-- What may remain of one text. -/
theorem mem_remainingAfter_singleton :
    rest ∈ remainingAfter accepts pattern [text] ↔
      ∃ taken, Covers accepts pattern taken ∧ taken ++ rest = text := by
  have nested : Nested [text] := List.pairwise_singleton _ text
  simpa using mem_remainingAfter nested

/-- Nothing may remain of the texts that are covered. -/
theorem any_isEmpty_remainingAfter :
    (remainingAfter accepts pattern [text]).any List.isEmpty = true ↔
      Covers accepts pattern text := by
  rw [List.any_eq_true]
  constructor
  · intro ⟨rest, member, isEmpty⟩
    rw [List.isEmpty_iff] at isEmpty
    subst isEmpty
    obtain ⟨taken, covers, isText⟩ := mem_remainingAfter_singleton.mp member
    rwa [← isText, List.append_nil]
  · intro covers
    exact ⟨[], mem_remainingAfter_singleton.mpr ⟨text, covers, List.append_nil text⟩, rfl⟩

instance (accepts : Char → Char → Bool) (pattern text : List Char) :
    Decidable (Covers accepts pattern text) := decidable_of_iff _ any_isEmpty_remainingAfter

end Matcher

/-- The matcher accepts what the pattern covers, and what it covers up to one line break at the end. -/
theorem coversText_iff {caseSensitive : Bool} {pattern text : List Char} :
    coversText caseSensitive pattern text = true ↔
      Covers (acceptsCharacter caseSensitive) pattern text ∨
        ∃ line, line ++ ['\n'] = text ∧ Covers (acceptsCharacter caseSensitive) pattern line := by
  rw [coversText, ← any_isEmpty_remainingAfter, List.any_eq_true, List.any_eq_true]
  simp only [isUsedUp, Bool.or_eq_true, and_or_left, exists_or, beq_iff_eq, exists_eq_right]
  rw [mem_remainingAfter_singleton]
  simp only [and_comm]

/-- Where no line break can be left over, it makes no difference that one may be. -/
theorem covers_or_line_iff {accepts : Char → Char → Bool} {pattern text : List Char}
    (whole : text.getLast? ≠ some '\n' ∨ pattern.getLast? = some '%') :
    (Covers accepts pattern text ∨ ∃ line, line ++ ['\n'] = text ∧ Covers accepts pattern line) ↔
      Covers accepts pattern text := by
  constructor
  · rintro (covers | ⟨line, rfl, covers⟩)
    · exact covers
    · rcases whole with noBreak | percent
      · simp at noBreak
      · exact covers.beyond percent ['\n']
  · exact .inl

theorem acceptsCharacter_true :
    acceptsCharacter true = fun expected actual => expected == actual := by
  funext expected actual
  simp [acceptsCharacter]

/-- A text is matched exactly when the pattern covers it: the whole of it, or all but one line break
at its end.  So where the text does not end in a line break, or the pattern ends in a percent sign,
the texts that are matched are the ones that can be cut into the pieces of the pattern. -/
theorem likeMatches_iff_covers (text pattern : String) :
    (likeMatches (.text text) pattern = true ↔
      Covers (fun expected actual => expected == actual) pattern.toList text.toList ∨
        ∃ line, line ++ ['\n'] = text.toList ∧
          Covers (fun expected actual => expected == actual) pattern.toList line) ∧
      (text.toList.getLast? ≠ some '\n' ∨ pattern.toList.getLast? = some '%' →
        (likeMatches (.text text) pattern = true ↔
          Covers (fun expected actual => expected == actual) pattern.toList text.toList)) := by
  have matched : likeMatches (.text text) pattern = coversText true pattern.toList text.toList := rfl
  rw [matched, coversText_iff, acceptsCharacter_true]
  exact ⟨Iff.rfl, covers_or_line_iff⟩

theorem likeMatches_iff_covers_lines :
    ("one.\ntwo".toList.getLast? ≠ some '\n' ∨ "_ne.%o".toList.getLast? = some '%') ∧
      likeMatches (.text "one.\ntwo") "_ne.%o" = true ∧
      Covers (fun expected actual => expected == actual) "_ne.%o".toList "one.\ntwo".toList := by
  have noBreak : "one.\ntwo".toList.getLast? ≠ some '\n' ∨ "_ne.%o".toList.getLast? = some '%' := by
    decide
  have matched : likeMatches (.text "one.\ntwo") "_ne.%o" = true := by decide
  exact ⟨noBreak, matched, ((likeMatches_iff_covers _ _).2 noBreak).mp matched⟩

/-- A line break at the end of a text is ignored. -/
theorem lineBreak_ignored :
    likeMatches (.text "a\n") "a" = true ∧
      ¬Covers (fun expected actual => expected == actual) "a".toList "a\n".toList := by
  decide

/-! ## Searching for a text -/

/-- A text without a percent sign and without an underscore. -/
def IsLiteral (characters : List Char) : Prop := '%' ∉ characters ∧ '_' ∉ characters

instance (characters : List Char) : Decidable (IsLiteral characters) :=
  inferInstanceAs (Decidable (_ ∧ _))

section Patterns

variable {accepts : Char → Char → Bool} {first second value text : List Char}

theorem covers_append :
    Covers accepts (first ++ second) text ↔
      ∃ front rest, Covers accepts first front ∧ Covers accepts second rest ∧
        front ++ rest = text := by
  induction first generalizing text with
  | nil => simp
  | cons expected first induction =>
      simp only [List.cons_append, covers_cons, induction]
      constructor
      · intro ⟨piece, others, stands, ⟨front, rest, coversFront, coversRest, isOthers⟩, isText⟩
        refine ⟨piece ++ front, rest, ⟨piece, front, stands, coversFront, rfl⟩, coversRest, ?_⟩
        rw [List.append_assoc, isOthers, isText]
      · intro ⟨front, rest, ⟨piece, others, stands, coversOthers, isFront⟩, coversRest, isText⟩
        refine ⟨piece, others ++ rest, stands, ⟨others, rest, coversOthers, coversRest, rfl⟩, ?_⟩
        rw [← List.append_assoc, isFront, isText]

/-- A percent sign covers every text. -/
theorem covers_percent (text : List Char) : Covers accepts ['%'] text :=
  covers_cons.mpr ⟨text, [], .percent text, covers_nil.mpr rfl, List.append_nil text⟩

/-- Without wildcards a pattern covers the texts that it accepts character by character. -/
theorem covers_literal (literal : IsLiteral value) :
    Covers accepts value text ↔
      List.Forall₂ (fun expected actual => accepts expected actual = true) value text := by
  induction value generalizing text with
  | nil => rw [covers_nil, List.forall₂_nil_left_iff]
  | cons expected value induction =>
      obtain ⟨noPercent, noUnderscore⟩ := literal
      rw [List.mem_cons, not_or] at noPercent noUnderscore
      have tail : IsLiteral value := ⟨noPercent.2, noUnderscore.2⟩
      rw [covers_cons, List.forall₂_cons_left_iff]
      constructor
      · intro ⟨piece, rest, stands, coversRest, isText⟩
        obtain ⟨actual, rfl, accepted⟩ := (standsFor_iff (Ne.symm noPercent.1)).mp stands
        have isAccepted := accepted.resolve_left (Ne.symm noUnderscore.1)
        exact ⟨actual, rest, isAccepted, (induction tail).mp coversRest, isText.symm⟩
      · intro ⟨actual, rest, accepted, each, isText⟩
        have stands := StandsFor.letter (Ne.symm noPercent.1) (Ne.symm noUnderscore.1) accepted
        exact ⟨[actual], rest, stands, (induction tail).mpr each, isText.symm⟩

/-- Between percent signs a pattern covers the texts that hold a run of characters it accepts. -/
theorem covers_anywhere (literal : IsLiteral value) :
    Covers accepts ('%' :: value ++ ['%']) text ↔
      ∃ run, run <:+: text ∧
        List.Forall₂ (fun expected actual => accepts expected actual = true) value run := by
  rw [List.cons_append, covers_cons]
  constructor
  · intro ⟨before, others, _, coversOthers, isText⟩
    obtain ⟨run, behind, coversRun, _, isOthers⟩ := covers_append.mp coversOthers
    refine ⟨run, ⟨before, behind, ?_⟩, (covers_literal literal).mp coversRun⟩
    rw [List.append_assoc, isOthers, isText]
  · intro ⟨run, ⟨before, behind, isText⟩, each⟩
    have coversRun := (covers_literal literal).mpr each
    refine ⟨before, run ++ behind, .percent before, ?_, ?_⟩
    · exact covers_append.mpr ⟨run, behind, coversRun, covers_percent behind, rfl⟩
    · rw [← List.append_assoc, isText]

end Patterns

/-- A pattern between percent signs leaves no line break over, so it matches what it covers. -/
theorem coversText_anywhere {caseSensitive : Bool} {value text : List Char}
    (literal : IsLiteral value) :
    coversText caseSensitive ('%' :: value ++ ['%']) text = true ↔
      ∃ run, run <:+: text ∧ List.Forall₂ (fun expected actual =>
        acceptsCharacter caseSensitive expected actual = true) value run := by
  have percent : ('%' :: value ++ ['%']).getLast? = some '%' := List.getLast?_concat
  rw [coversText_iff, covers_or_line_iff (.inr percent), covers_anywhere literal]

/-- When case matters, the characters that are accepted for a text are the text. -/
theorem forall₂_accepts_iff {value run : List Char} :
    List.Forall₂ (fun expected actual => acceptsCharacter true expected actual = true) value run ↔
      value = run := by
  simp [acceptsCharacter_true, List.forall₂_eq_eq_eq]

end ResourceServer.Filter

namespace ResourceServer.SearchTerm

open ResourceServer.Filter

variable {term : SearchTerm} {record : Record}

/-- A field of a term is found when it is there, is not null and has a text that the pattern of the
term covers. -/
theorem evaluate_eq_true :
    term.evaluate record = true ↔
      ∃ field ∈ term.fields, ∃ value, record.get? field = some value ∧ value ≠ .null ∧
        coversText term.caseSensitive ('%' :: term.value.toList ++ ['%']) value.plain.toList =
          true := by
  have isPattern : term.pattern.toList = '%' :: term.value.toList ++ ['%'] := by
    simp [pattern, String.toList_append]
  have matched : ∀ field, likeMatches (record.get field) term.pattern term.caseSensitive = true ↔
      ∃ value, record.get? field = some value ∧ value ≠ .null ∧
        coversText term.caseSensitive ('%' :: term.value.toList ++ ['%']) value.plain.toList =
          true := by
    intro field
    rw [likeMatches, isPattern, Record.get, Record.get?]
    cases record.lookup field with
    | none => simp [Value.isNull]
    | some value => cases value <;> simp [Value.isNull]
  rw [evaluate, List.any_eq_true]
  simp only [matched]

/-- A term is found in a record exactly when the text of one of its fields contains the value of the
term, and it stays found when it is looked for in more fields. -/
theorem evaluate_iff_contains (sensitive : term.caseSensitive = true)
    (noPercent : '%' ∉ term.value.toList) (noUnderscore : '_' ∉ term.value.toList)
    (record : Record) :
    (term.evaluate record = true ↔
      ∃ field ∈ term.fields, ∃ value, record.get? field = some value ∧ value ≠ .null ∧
        term.value.toList <:+: value.plain.toList) ∧
      ∀ more, term.fields ⊆ more → term.evaluate record = true →
        { term with fields := more }.evaluate record = true := by
  constructor
  · have contains : ∀ text,
        coversText term.caseSensitive ('%' :: term.value.toList ++ ['%']) text = true ↔
          term.value.toList <:+: text := by
      intro text
      rw [sensitive, coversText_anywhere ⟨noPercent, noUnderscore⟩]
      simp only [forall₂_accepts_iff, exists_eq_right']
    rw [evaluate_eq_true]
    simp only [contains]
  · intro more within found
    obtain ⟨field, isField, holds⟩ := evaluate_eq_true.mp found
    exact evaluate_eq_true.mpr ⟨field, within isField, holds⟩

theorem evaluate_iff_contains_lines :
    let term : SearchTerm := ⟨".*\n(", ["title", "body"], true⟩
    let record : Record := [("title", .null), ("body", .text "one.*\n(two)\n"), ("rank", .int 7)]
    (term.caseSensitive = true ∧ '%' ∉ term.value.toList ∧ '_' ∉ term.value.toList) ∧
      (∃ field ∈ term.fields, ∃ value, record.get? field = some value ∧ value ≠ .null ∧
        term.value.toList <:+: value.plain.toList) ∧
      { term with fields := ["rank", "title", "body"] }.evaluate record = true := by
  intro term record
  have noPercent : '%' ∉ term.value.toList := by decide
  have noUnderscore : '_' ∉ term.value.toList := by decide
  have found : term.evaluate record = true := by decide
  have sensitive : term.caseSensitive = true := rfl
  have holds := evaluate_iff_contains sensitive noPercent noUnderscore record
  have more : term.fields ⊆ ["rank", "title", "body"] := by decide
  exact ⟨⟨sensitive, noPercent, noUnderscore⟩, holds.1.mp found, holds.2 _ more found⟩

end ResourceServer.SearchTerm
