import Mathlib.Data.List.TakeWhile
import ResourceServer.Filter.Search
import ResourceServer.Proofs.Sql.Typing

/-!
# Searching texts of ASCII characters

Both ways of looking for a text ignore the case of letters: one writes text and pattern in small
letters, the other one compares letter by letter with the foldings of all scripts.  Among ASCII
characters these agree.  The one leaves a line break at the end of the text over and the other
one does not, but the pattern of a search ends with a percent sign, which leaves nothing over.
-/

namespace ResourceServer

/-- Whether a text consists of ASCII characters and holds no null character. -/
def isAscii (text : String) : Bool :=
  text.toList.all fun character => 0 < character.toNat && character.toNat < 128

theorem isAscii_iff {text : String} :
    isAscii text = true ↔ ∀ character ∈ text.toList, 0 < character.toNat ∧ character.toNat < 128 := by
  simp [isAscii]

namespace Sql

/-! ## Letters -/

section Letters

variable {character expected actual : Char}

theorem toNat_lowered (below : character.toNat < 128) :
    (lowered character).toNat =
      if 65 ≤ character.toNat ∧ character.toNat ≤ 90 then character.toNat + 32
      else character.toNat := by
  have each : ∀ code < 128, (lowered (Char.ofNat code)).toNat =
      if 65 ≤ code ∧ code ≤ 90 then code + 32 else code := by
    decide +kernel
  have holds := each character.toNat below
  rwa [Char.ofNat_toNat] at holds

theorem lowered_below (below : character.toNat < 128) : (lowered character).toNat < 128 := by
  rw [toNat_lowered below]
  split <;> omega

theorem lowered_lowered (below : character.toNat < 128) :
    lowered (lowered character) = lowered character := by
  rw [← Char.toNat_inj, toNat_lowered (lowered_below below), toNat_lowered below]
  split_ifs <;> omega

theorem lowered_eq_percent (below : character.toNat < 128) :
    lowered character = '%' ↔ character = '%' := by
  rw [← Char.toNat_inj, ← Char.toNat_inj, toNat_lowered below, show '%'.toNat = 37 from rfl]
  split_ifs <;> omega

theorem lowered_eq_underscore (below : character.toNat < 128) :
    lowered character = '_' ↔ character = '_' := by
  rw [← Char.toNat_inj, ← Char.toNat_inj, toNat_lowered below, show '_'.toNat = 95 from rfl]
  split_ifs <;> omega

theorem lowered_ne_null (below : character.toNat < 128) (some : 0 < character.toNat) :
    (lowered character).toNat ≠ 0 := by
  rw [toNat_lowered below]
  split_ifs <;> omega

/-- The first run of letters is the only one that begins below 128. -/
theorem lowerCode_below {code : Nat} (below : code < 128) :
    Text.lowerCode code = if 65 ≤ code ∧ code ≤ 90 then code + 32 else code := by
  have runs : Text.caseRuns = ⟨65, 90, 1, 32⟩ :: Text.caseRuns.tail := rfl
  have later : ∀ run ∈ Text.caseRuns.tail, 128 ≤ run.first := by decide +kernel
  have missed : Text.caseRuns.tail.find? (fun run =>
      run.first ≤ code && code ≤ run.last && (code - run.first) % run.step == 0) = none := by
    rw [List.find?_eq_none]
    intro run member
    have beyond := later run member
    rw [Bool.and_eq_true, Bool.and_eq_true, decide_eq_true_eq]
    omega
  by_cases capital : 65 ≤ code ∧ code ≤ 90
  · rw [Text.lowerCode, runs, List.find?_cons_of_pos (by simp [capital, Nat.mod_one]),
      if_pos capital]
    rfl
  · rw [Text.lowerCode, runs, List.find?_cons_of_neg (by simp [capital]), missed,
      if_neg capital]

theorem lowerCode_eq (below : character.toNat < 128) :
    Text.lowerCode character.toNat = (lowered character).toNat := by
  rw [lowerCode_below below, toNat_lowered below]

/-- No ASCII letter folds with another one but its capital. -/
theorem fold_below {wanted found : Nat} (wantedBelow : wanted < 128) (foundBelow : found < 128) :
    ((Text.foldingClasses.find? fun entry => entry.1 == wanted).any fun entry =>
      entry.2.contains found) = false := by
  have beyond : ∀ entry ∈ Text.foldingClasses, entry.1 < 128 → ∀ code ∈ entry.2, 128 ≤ code := by
    decide
  rw [← Bool.not_eq_true, Option.any_eq_true]
  rintro ⟨entry, isEntry, contains⟩
  have member := List.mem_of_find?_eq_some isEntry
  have sameCode := List.find?_some isEntry
  rw [beq_iff_eq] at sameCode
  rw [List.contains_iff_mem] at contains
  have far := beyond entry member (by omega) found contains
  omega

theorem alike_lowered (expectedBelow : expected.toNat < 128) (actualBelow : actual.toNat < 128) :
    sameLetter (lowered expected) (lowered actual) = Text.alike expected actual := by
  have wanted := lowerCode_eq expectedBelow
  have found := lowerCode_eq actualBelow
  have apart := fold_below (lowered_below expectedBelow) (lowered_below actualBelow)
  rw [Text.alike, wanted, found, apart, Bool.or_false, sameLetter, lowered_lowered expectedBelow,
    lowered_lowered actualBelow, Bool.eq_iff_iff, beq_iff_eq, beq_iff_eq, Char.toNat_inj]
  exact eq_comm

end Letters

/-! ## Patterns -/

section Patterns

open ResourceServer.Filter

/-- Whether all characters of several texts are ASCII characters. -/
def Below (texts : List (List Char)) : Prop :=
  ∀ text ∈ texts, ∀ character ∈ text, character.toNat < 128

theorem afterOne_lowered {expected : Char} {text : List Char} (expectedBelow : expected.toNat < 128)
    (textBelow : ∀ character ∈ text, character.toNat < 128) :
    afterOne? sameLetter (lowered expected) (text.map lowered) =
      (afterOne? (acceptsCharacter false) expected text).map (List.map lowered) := by
  cases text with
  | nil => rfl
  | cons actual rest =>
      have same := alike_lowered expectedBelow (textBelow actual List.mem_cons_self)
      simp only [List.map_cons, afterOne?, lowered_eq_underscore expectedBelow, same,
        acceptsCharacter, Bool.false_eq_true, if_false]
      split <;> rfl

theorem remainders_lowered (text : List Char) :
    remainders (text.map lowered) = (remainders text).map (List.map lowered) := by
  induction text with
  | nil => rfl
  | cons character rest induction =>
      rw [List.map_cons, remainders, remainders, induction]
      rfl

theorem below_remainders {text : List Char} (below : ∀ character ∈ text, character.toNat < 128) :
    Below (remainders text) := by
  induction text with
  | nil => simp [remainders, Below]
  | cons character rest induction =>
      rw [remainders, Below, List.forall_mem_cons]
      exact ⟨below, induction fun other member => below other (List.mem_cons_of_mem character member)⟩

theorem below_afterOne {accepts : Char → Char → Bool} {expected : Char} {texts : List (List Char)}
    (below : Below texts) : Below (texts.filterMap (afterOne? accepts expected)) := by
  intro rest member character inRest
  obtain ⟨text, isText, after⟩ := List.mem_filterMap.mp member
  cases text with
  | nil => cases after
  | cons actual others =>
      rw [afterOne?] at after
      split at after
      · cases after
        exact below _ isText character (List.mem_cons_of_mem actual inRest)
      · cases after

/-- What remains of lowered texts after a lowered pattern is what remains of the texts, lowered. -/
theorem remainingAfter_lowered {pattern : List Char} {texts : List (List Char)}
    (patternBelow : ∀ character ∈ pattern, character.toNat < 128) (textsBelow : Below texts) :
    remainingAfter sameLetter (pattern.map lowered) (texts.map (List.map lowered)) =
      (remainingAfter (acceptsCharacter false) pattern texts).map (List.map lowered) := by
  induction pattern generalizing texts with
  | nil => rfl
  | cons expected pattern induction =>
      rw [List.forall_mem_cons] at patternBelow
      have percentLowered := lowered_eq_percent patternBelow.1
      rw [List.map_cons, remainingAfter, remainingAfter]
      by_cases percent : expected = '%'
      · rw [if_pos percent, if_pos (percentLowered.mpr percent)]
        cases texts with
        | nil => rfl
        | cons text others =>
            rw [Below, List.forall_mem_cons] at textsBelow
            have rest := induction patternBelow.2 (below_remainders textsBelow.1)
            rw [← remainders_lowered] at rest
            exact rest
      · rw [if_neg percent, if_neg (percentLowered.not.mpr percent),
          ← induction patternBelow.2 (below_afterOne textsBelow), List.filterMap_map,
          List.map_filterMap]
        congr 1
        apply List.filterMap_congr
        intro text member
        exact afterOne_lowered patternBelow.1 (textsBelow text member)

theorem remainingAfter_nil {accepts : Char → Char → Bool} (pattern : List Char) :
    remainingAfter accepts pattern [] = [] := by
  induction pattern with
  | nil => rfl
  | cons expected pattern induction =>
      rw [remainingAfter]
      split
      · rfl
      · exact induction

theorem remainingAfter_append {accepts : Char → Char → Bool} (first second : List Char)
    (texts : List (List Char)) :
    remainingAfter accepts (first ++ second) texts =
      remainingAfter accepts second (remainingAfter accepts first texts) := by
  induction first generalizing texts with
  | nil => rfl
  | cons expected first induction =>
      rw [List.cons_append, remainingAfter, remainingAfter]
      split
      · split
        · exact induction _
        · exact (remainingAfter_nil second).symm
      · exact induction _

/-- After a final percent sign the empty text remains, if anything does. -/
theorem any_after_percent {accepts : Char → Char → Bool} {accepted : List Char → Bool}
    (acceptsNil : accepted [] = true) (pattern : List Char) (text : List Char) :
    (remainingAfter accepts (pattern ++ ['%']) [text]).any accepted =
      (remainingAfter accepts pattern [text]).head?.isSome := by
  have nil_mem : ∀ text : List Char, [] ∈ remainders text := by
    intro text
    induction text with
    | nil => simp [remainders]
    | cons character rest induction => simp [remainders, induction]
  rw [remainingAfter_append]
  cases found : remainingAfter accepts pattern [text] with
  | nil => rfl
  | cons first others =>
      have last : remainingAfter accepts ['%'] (first :: others) = remainders first := by
        simp [remainingAfter]
      rw [last, List.any_eq_true.mpr ⟨[], nil_mem first, acceptsNil⟩]
      rfl

end Patterns

/-! ## Texts -/

/-- A text in small letters. -/
def loweredText (text : String) : String := String.ofList (text.toList.map lowered)

theorem visible_lowered {text : String} (ascii : isAscii text = true) :
    visible (loweredText text) = text.toList.map lowered := by
  rw [isAscii_iff] at ascii
  rw [visible, loweredText, String.toList_ofList, List.takeWhile_eq_self_iff]
  intro character member
  obtain ⟨original, isLetter, rfl⟩ := List.mem_map.mp member
  obtain ⟨some, below⟩ := ascii original isLetter
  rw [bne_iff_ne]
  exact lowered_ne_null below some

/-- The pattern that finds an ASCII text anywhere is ASCII. -/
theorem isAscii_anywhere {value : String} (ascii : isAscii value = true) :
    isAscii ("%" ++ value ++ "%") = true := by
  have percent : ∀ character ∈ "%".toList, 0 < character.toNat ∧ character.toNat < 128 := by
    intro character member
    rw [List.mem_singleton.mp member]
    exact ⟨by decide, by decide⟩
  rw [isAscii_iff] at ascii ⊢
  simp only [String.toList_append, List.forall_mem_append]
  exact ⟨⟨percent, ascii⟩, percent⟩

/-- A search for an ASCII text in another one has the same outcome with small letters. -/
theorem likeText_lowered {text value : String} (asciiText : isAscii text = true)
    (asciiValue : isAscii value = true) :
    likeText (loweredText text) (loweredText ("%" ++ value ++ "%")) =
      Filter.coversText false ("%" ++ value ++ "%").toList text.toList := by
  have asciiPattern := isAscii_anywhere asciiValue
  rw [likeText, Filter.coversText, visible_lowered asciiText, visible_lowered asciiPattern]
  rw [isAscii_iff] at asciiText asciiValue asciiPattern
  have ending : ("%" ++ value ++ "%").toList = ("%" ++ value).toList ++ ['%'] := by
    rw [String.toList_append]
    rfl
  have patternBelow : ∀ character ∈ ("%" ++ value).toList, character.toNat < 128 := by
    intro character member
    apply (asciiPattern character _).2
    rw [ending]
    exact List.mem_append_left _ member
  have textBelow : Below [text.toList] := by
    intro characters isText character member
    rw [List.mem_singleton.mp isText] at member
    exact (asciiText character member).2
  have percent : lowered '%' = '%' := by decide
  have walk := remainingAfter_lowered patternBelow textBelow
  rw [List.map_singleton] at walk
  rw [ending, List.map_append, List.map_singleton, percent, any_after_percent rfl,
    any_after_percent rfl, walk, List.head?_map, Option.isSome_map]

theorem utf8ByteSize_ofList {characters : List Char}
    (below : ∀ character ∈ characters, character.toNat < 128) :
    (String.ofList characters).utf8ByteSize = characters.length := by
  induction characters with
  | nil => rfl
  | cons character rest induction =>
      rw [List.forall_mem_cons] at below
      have size : character.utf8Size = 1 := by
        rw [Char.utf8Size_eq_one_iff, UInt32.le_iff_toNat_le]
        exact Nat.le_of_lt_succ below.1
      rw [String.ofList_cons, String.utf8ByteSize_append, String.utf8ByteSize_singleton, size,
        induction below.2, List.length_cons, Nat.add_comm]

/-- A text of ASCII characters has as many bytes as characters. -/
theorem utf8ByteSize_of_isAscii {text : String} (ascii : isAscii text = true) :
    text.utf8ByteSize = text.length := by
  rw [isAscii_iff] at ascii
  have size := utf8ByteSize_ofList fun character member => (ascii character member).2
  rwa [String.ofList_toList, String.length_toList] at size

end Sql

end ResourceServer
