import ResourceServer.Filter.Reader
import ResourceServer.Proofs.Entries

/-!
# Words of a filter

Which words name an operator or a combinator.  The type of an entry is read through the text
of whatever value stands there, but only a text spells one of the two combinators: the text of
every other value holds a character that is in neither word.
-/

namespace ResourceServer

namespace Text

/-- A text holds a character that is in neither of the words for combinators, in any case. -/
def IsForeign (text : String) : Prop :=
  ∃ character ∈ text.toList, character ≠ '\u212a' ∧ character.toLower ∉ "andor".toList

theorem isForeign_append {left right : String} :
    IsForeign (left ++ right) ↔ IsForeign left ∨ IsForeign right := by
  simp only [IsForeign, String.toList_append, List.mem_append, or_and_right, exists_or]

theorem lowerWord_ne_of_isForeign {text word : String} (foreign : IsForeign text)
    (known : word.toList ⊆ "andor".toList) : lowerWord text ≠ word := by
  obtain ⟨character, member, notKelvin, outside⟩ := foreign
  rintro rfl
  refine outside (known ?_)
  rw [lowerWord, String.toList_ofList, List.mem_map]
  exact ⟨character, member, if_neg notKelvin⟩

theorem isForeign_of_isDigit {text : String} {character : Char} (member : character ∈ text.toList)
    (isDigit : character.isDigit = true) : IsForeign text := by
  rw [Char.isDigit_iff_toNat] at isDigit
  have bounds : 48 ≤ character.toNat ∧ character.toNat ≤ 57 := isDigit
  have lowered : character.toLower = character := by
    unfold Char.toLower
    split
    · rename_i capital
      have above : 65 ≤ character.toNat := capital.1
      omega
    · rfl
  refine ⟨character, member, ?_, ?_⟩
  · rintro rfl
    exact absurd bounds (by decide)
  · rw [lowered]
    intro letter
    have above : ∀ letter ∈ "andor".toList, 57 < letter.toNat := by simp
    exact absurd bounds.2 (Nat.not_le.mpr (above character letter))

theorem isForeign_natural (number : Nat) : IsForeign (toString number) := by
  obtain ⟨first, rest, isCons⟩ := List.exists_cons_of_ne_nil (Nat.toDigits_ne_nil (n := number))
  have member : first ∈ Nat.toDigits 10 number := by
    rw [isCons]
    exact List.mem_cons_self
  have written : first ∈ (toString number).toList := by
    change first ∈ number.repr.toList
    rwa [Nat.toList_repr]
  exact isForeign_of_isDigit written
    (Nat.isDigit_of_mem_toDigits (by decide) (Nat.le_refl 10) member)

theorem isForeign_integer (number : Int) : IsForeign (toString number) := by
  cases number with
  | ofNat number => exact isForeign_natural number
  | negSucc number => exact isForeign_append.mpr (.inr (isForeign_natural (number + 1)))

theorem isForeign_decimal (layout : Decimal.Layout) (value : Decimal) :
    IsForeign (value.write layout) := by
  have point : IsForeign "." := ⟨'.', by decide, by decide, by decide⟩
  have pointZero : IsForeign ".0" := ⟨'.', by decide, by decide, by decide⟩
  have zeroPoint : IsForeign "0." := ⟨'.', by decide, by decide, by decide⟩
  have mark : IsForeign "e" := ⟨'e', by decide, by decide, by decide⟩
  unfold Decimal.write Decimal.exponentText
  dsimp only
  split
  · split
    · simp only [isForeign_append, pointZero, or_true]
    · split
      · simp only [isForeign_append, point, or_true, true_or]
      · simp only [isForeign_append, zeroPoint, true_or]
  · simp only [isForeign_append, mark, or_true, true_or]

theorem isForeign_moment (moment : Moment) : IsForeign (moment.isoText " ") := by
  have dash : IsForeign "-" := ⟨'-', by decide, by decide, by decide⟩
  unfold Moment.isoText Moment.dateText
  simp only [isForeign_append, dash, or_true, true_or]

end Text

namespace Filter

namespace Combinator

/-- Only a text spells the word of a combinator. -/
theorem ofWord?_plain {value : Value} (notText : ∀ text, value ≠ .text text) :
    ofWord? (Text.lowerWord value.plain) = none := by
  have unknown : ∀ text : String, Text.IsForeign text →
      ofWord? (Text.lowerWord text) = none := by
    intro text foreign
    rw [ofWord?, if_neg (Text.lowerWord_ne_of_isForeign foreign (by decide)),
      if_neg (Text.lowerWord_ne_of_isForeign foreign (by decide))]
  cases value with
  | null => decide
  | bool flag => cases flag <;> decide
  | int number => exact unknown _ (Text.isForeign_integer number)
  | float double =>
      cases double with
      | nan mark =>
          change ofWord? (Text.lowerWord "nan") = none
          decide
      | infinite negative => cases negative <;> decide
      | finite negative significand exponent =>
          refine unknown _ (Text.isForeign_append.mpr (.inr ?_))
          split
          · exact ⟨'.', by decide, by decide, by decide⟩
          · exact Text.isForeign_decimal _ _
  | text text => exact absurd rfl (notText text)
  | moment moment => exact unknown _ (Text.isForeign_moment moment)
  | list items =>
      refine unknown _ ?_
      change Text.IsForeign ("[" ++ _ ++ "]")
      exact Text.isForeign_append.mpr (.inr ⟨']', by decide, by decide, by decide⟩)
  | object members =>
      refine unknown _ ?_
      change Text.IsForeign ("\x7b" ++ _ ++ "\x7d")
      exact Text.isForeign_append.mpr (.inr ⟨'\x7d', by decide, by decide, by decide⟩)

/-- How an entry joins those before it: by the word of its type in any case, else by `and`. -/
def Joins (combinator : Combinator) (entry : Record) : Prop :=
  (entry.get? "type" = none ∧ combinator = .both) ∨
    ∃ word, entry.get? "type" = some (.text word) ∧ Text.lowerWord word = combinator.word

theorem ofWord?_eq_some {word : String} {combinator : Combinator} :
    ofWord? word = some combinator ↔ word = combinator.word := by
  unfold ofWord?
  split
  · rename_i isAnd
    subst isAnd
    cases combinator <;> decide
  · rename_i notAnd
    split
    · rename_i isOr
      subst isOr
      cases combinator <;> decide
    · rename_i notOr
      cases combinator with
      | both => exact iff_of_false nofun notAnd
      | either => exact iff_of_false nofun notOr

theorem ofEntry_eq_ok {entry : Record} {combinator : Combinator} :
    ofEntry entry = .ok combinator ↔ combinator.Joins entry := by
  have reads : ofEntry entry = .ok combinator ↔
      ofWord? (Text.lowerWord ((entry.get? "type").getD (.text both.word)).plain) =
        some combinator := by
    rw [ofEntry]
    split
    · rename_i found
      rw [found, Except.ok.injEq, Option.some.injEq]
    · rename_i missing
      rw [missing]
      exact iff_of_false nofun nofun
  rw [reads, Joins]
  cases found : entry.get? "type" with
  | none =>
      change some Combinator.both = some combinator ↔ _
      simp [eq_comm]
  | some value =>
      rw [Option.getD_some]
      cases value with
      | text word => simp [ofWord?_eq_some, Value.plain]
      | _ =>
          rw [ofWord?_plain (by nofun)]
          simp

/-- A type that names no combinator is a fault of the request. -/
theorem ofEntry_error {entry : Record} {error : Error} (failed : ofEntry entry = .error error) :
    error.isRequestError = true := by
  rw [ofEntry] at failed
  split at failed
  · cases failed
  · cases failed
    rfl

end Combinator

namespace Operator

/-- A word names an operator that filters may use: it is its own word, or without blanks around
it and in any case it is another spelling or the operator's word. -/
def Names (operator : Operator) (word : String) : Prop :=
  operator ∈ supported ∧
    (word = operator.word ∨ (Text.lowerWord (Text.trim word), operator) ∈ spellings ∨
      Text.lowerWord (Text.trim word) = Text.lowerWord operator.word)

theorem ofWord?_eq_some {word : String} {operator : Operator} :
    ofWord? word = some operator ↔ operator ∈ supported ∧ word = operator.word := by
  constructor
  · intro found
    have spelled := List.find?_some found
    exact ⟨List.mem_of_find?_eq_some found, (beq_iff_eq.mp spelled).symm⟩
  · rintro ⟨known, rfl⟩
    revert known
    revert operator
    decide

/-- Words of operators and other spellings, without regard to case. -/
def lowerings : List (String × Operator) :=
  spellings ++ supported.map fun operator => (Text.lowerWord operator.word, operator)

theorem lowerings_functional : ∀ first ∈ lowerings, ∀ second ∈ lowerings,
    first.1 = second.1 → first.2 = second.2 := by
  decide +kernel

theorem lowerWord_word : ∀ operator ∈ supported,
    Text.lowerWord (Text.trim operator.word) = Text.lowerWord operator.word := by
  decide +kernel

theorem Names.mem_lowerings {operator : Operator} {word : String} (names : operator.Names word) :
    (Text.lowerWord (Text.trim word), operator) ∈ lowerings := by
  have own : (Text.lowerWord operator.word, operator) ∈ lowerings :=
    List.mem_append_right _ (List.mem_map.mpr ⟨operator, names.1, rfl⟩)
  obtain ⟨known, rfl | spelled | lowered⟩ := names
  · rwa [lowerWord_word operator known]
  · exact List.mem_append_left _ spelled
  · rwa [lowered]

/-- A word names one operator at most. -/
theorem Names.unique {first second : Operator} {word : String} (names : first.Names word)
    (others : second.Names word) : first = second :=
  lowerings_functional _ names.mem_lowerings _ others.mem_lowerings rfl

theorem spellings_supported : ∀ spelling ∈ spellings, spelling.2 ∈ supported := by
  decide

section Lookup

variable {word : String} {operator : Operator}

theorem names_of_found
    (found : (ofWord? word <|> spellings.lookup (Text.lowerWord (Text.trim word)) <|>
      supported.find? fun operator =>
        Text.lowerWord operator.word == Text.lowerWord (Text.trim word)) = some operator) :
    operator.Names word := by
  simp only [Option.orElse_eq_orElse, Option.orElse_eq_or, Option.or_eq_some_iff] at found
  obtain own | ⟨_, spelled | ⟨_, lowered⟩⟩ := found
  · obtain ⟨known, isWord⟩ := ofWord?_eq_some.mp own
    exact ⟨known, .inl isWord⟩
  · have member := Entries.mem_of_lookup spelled
    exact ⟨spellings_supported _ member, .inr (.inl member)⟩
  · have isLowered := List.find?_some lowered
    exact ⟨List.mem_of_find?_eq_some lowered, .inr (.inr (beq_iff_eq.mp isLowered).symm)⟩

/-- A word that names an operator is found in one of the three ways. -/
theorem found_of_names (names : operator.Names word) :
    (ofWord? word <|> spellings.lookup (Text.lowerWord (Text.trim word)) <|>
      supported.find? fun operator =>
        Text.lowerWord operator.word == Text.lowerWord (Text.trim word)) = some operator := by
  have isSome : (ofWord? word <|> spellings.lookup (Text.lowerWord (Text.trim word)) <|>
      supported.find? fun operator =>
        Text.lowerWord operator.word == Text.lowerWord (Text.trim word)).isSome = true := by
    simp only [Option.orElse_eq_orElse, Option.orElse_eq_or, Option.isSome_or, Bool.or_eq_true]
    obtain ⟨known, own | spelled | lowered⟩ := names
    · rw [ofWord?_eq_some.mpr ⟨known, own⟩]
      exact .inl rfl
    · refine .inr (.inl ?_)
      rw [Entries.lookup_isSome, List.any_eq_true]
      exact ⟨_, spelled, beq_self_eq_true _⟩
    · refine .inr (.inr ?_)
      rw [List.find?_isSome]
      exact ⟨operator, known, beq_iff_eq.mpr lowered.symm⟩
  obtain ⟨other, found⟩ := Option.isSome_iff_exists.mp isSome
  rw [found, (names_of_found found).unique names]

/-- The operator of a value is the one that it names, when it is a text. -/
theorem ofValue_eq_ok {value : Value} :
    ofValue value = .ok operator ↔ ∃ word, value = .text word ∧ operator.Names word := by
  constructor
  · intro done
    unfold ofValue at done
    split at done
    · rename_i word
      dsimp only at done
      split at done
      · rename_i found
        cases done
        exact ⟨word, rfl, names_of_found found⟩
      · cases done
    · cases done
  · rintro ⟨word, rfl, names⟩
    rw [ofValue, found_of_names names]

theorem ofValue_error {value : Value} {error : Error} (failed : ofValue value = .error error) :
    error.isRequestError = true := by
  unfold ofValue at failed
  split at failed
  · dsimp only at failed
    split at failed
    · cases failed
    · cases failed
      rfl
  · cases failed
    rfl

end Lookup

end Operator

end Filter

end ResourceServer
