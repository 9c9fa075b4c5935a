import ResourceServer.Envelope
import ResourceServer.Http.Target
import ResourceServer.Proofs.Numeric.Numeral
import ResourceServer.Proofs.Store.Steps

/-!
# Addresses of pages

The address of a page ends in a query that consists of the number of the page.  What is read from
it is the path of the listing and that number: digits are plain ASCII, so that they are read from
the query as they stand, and they spell the number that they were written for.
-/

namespace ResourceServer

/-! ## Plain text -/

namespace Text

theorem toList_loop (bytes : ByteArray) (index : Nat) (done : List UInt8) :
    ByteArray.toList.loop bytes index done = done.reverse ++ bytes.data.toList.drop index := by
  induction remaining : bytes.size - index generalizing index done with
  | zero =>
      have past : ¬ index < bytes.size := by omega
      rw [ByteArray.toList.loop, if_neg past, List.drop_eq_nil_of_le, List.append_nil]
      simpa using Nat.le_of_not_lt past
  | succ count induction =>
      have inside : index < bytes.size := by omega
      rw [ByteArray.toList.loop, if_pos inside, induction (index + 1) _ (by omega),
        List.reverse_cons, List.append_assoc, List.singleton_append]
      have inList : index < bytes.data.toList.length := by simpa using inside
      rw [List.drop_eq_getElem_cons inList]
      congr 2
      simp [ByteArray.get!, getElem!_pos, inside]

/-- In UTF-8 the code of an ASCII character is its byte. -/
theorem utf8Encode_ascii {characters : List Char}
    (ascii : ∀ character ∈ characters, character.toNat < 0x80) :
    characters.utf8Encode.data.toList.map UInt8.toNat = characters.map Char.toNat := by
  induction characters with
  | nil => rfl
  | cons character rest induction =>
      rw [List.forall_mem_cons] at ascii
      have small : character.val ≤ 127 := UInt32.le_iff_toNat_le.mpr (Nat.le_of_lt_succ ascii.1)
      have byte : character.val.toUInt8.toNat = character.toNat := by
        rw [UInt32.toNat_toUInt8]
        exact Nat.mod_eq_of_lt (ascii.1.trans (by decide))
      have single : [character].utf8Encode.data.toList = [character.val.toUInt8] := by
        rw [List.utf8Encode_singleton,
          String.utf8EncodeChar_eq_singleton (Char.utf8Size_eq_one_iff.mpr small),
          List.toList_data_toByteArray]
      rw [List.utf8Encode_cons, ByteArray.toList_data_append, List.map_append, induction ascii.2,
        single, List.map_cons, byte]
      rfl

theorem bytesOf_ofList {characters : List Char}
    (ascii : ∀ character ∈ characters, character.toNat < 0x80) :
    bytesOf (String.ofList characters) = characters.map Char.toNat := by
  rw [bytesOf, String.toUTF8_eq_toByteArray, String.toByteArray_ofList, ByteArray.toList,
    toList_loop]
  exact utf8Encode_ascii ascii

theorem charactersOf_ascii {characters : List Char}
    (ascii : ∀ character ∈ characters, character.toNat < 0x80) :
    charactersOf characters.length (characters.map Char.toNat) = characters := by
  induction characters with
  | nil => rfl
  | cons character rest induction =>
      rw [List.forall_mem_cons] at ascii
      have lead : Lead.ofByte? character.toNat = some ⟨0, character.toNat, 0x80, 0xbf⟩ :=
        if_pos ascii.1
      rw [List.length_cons, List.map_cons, charactersOf, lead]
      change Char.ofNat character.toNat :: charactersOf rest.length (rest.map Char.toNat) = _
      rw [Char.ofNat_toNat, induction ascii.2]

end Text

namespace Http

/-- Whether a character stands for itself in a query: it is ASCII and neither opens an escape nor
stands for a space. -/
def IsPlain (character : Char) : Prop :=
  character.toNat < 0x80 ∧ character ≠ '%' ∧ character ≠ '+'

theorem unescaped_eq_self {bytes : List Text.Byte} (noEscape : 0x25 ∉ bytes) :
    unescaped bytes = bytes := by
  induction bytes with
  | nil => rfl
  | cons byte rest induction =>
      rw [List.mem_cons, not_or] at noEscape
      rw [unescaped.eq_2, induction noEscape.2]
      rintro first second rest' rfl
      exact absurd rfl noEscape.1

theorem decodedField_ofList {characters : List Char}
    (plain : ∀ character ∈ characters, IsPlain character) :
    decodedField (String.ofList characters) = String.ofList characters := by
  have ascii : ∀ character ∈ characters, character.toNat < 0x80 :=
    fun character member => (plain character member).1
  have noSpace : characters.map (fun character => if character = '+' then ' ' else character) =
      characters := by
    refine (List.map_congr_left ?_).trans (List.map_id' characters)
    exact fun character member => if_neg (plain character member).2.2
  have noEscape : 0x25 ∉ characters.map Char.toNat := by
    rw [List.mem_map]
    rintro ⟨character, member, isPercent⟩
    exact (plain character member).2.1 (Char.toNat_inj.mp isPercent)
  rw [decodedField, String.toList_ofList, noSpace, decoded, Text.bytesOf_ofList ascii,
    unescaped_eq_self noEscape, List.length_map, Text.charactersOf_ascii ascii]

theorem splitAtFirst_append {separator : Char} {before : List Char}
    (absent : separator ∉ before) (after : List Char) :
    splitAtFirst separator (String.ofList (before ++ separator :: after)) =
      (String.ofList before, some (String.ofList after)) := by
  have apart : ∀ character ∈ before, (character != separator) = true := by
    intro character member
    exact bne_iff_ne.mpr fun same => absent (same ▸ member)
  have stops : (separator != separator) = false := bne_self_eq_false separator
  rw [splitAtFirst, String.toList_ofList, List.takeWhile_append_of_pos apart,
    List.dropWhile_append_of_pos apart, List.takeWhile_cons_of_neg (by simp),
    List.dropWhile_cons_of_neg (by simp), List.append_nil]

end Http

/-! ## Numbers -/

section Digits

variable {digits : List Char}

theorem Text.decimalValue?_of_isDigit {digit : Char} (isDigit : digit.isDigit = true) :
    decimalValue? digit = some (digit.toNat - '0'.toNat) := by
  have range := Char.isDigit_iff_toNat.mp isDigit
  have first : decimalZeros.find? (fun first => first ≤ digit.toNat && digit.toNat ≤ first + 9) =
      some 0x30 := by
    rw [decimalZeros, List.find?_cons_of_pos]
    simpa using range
  rw [decimalValue?, first]
  rfl

theorem Text.isDigit_of_ascii {digit : Char} (isDigit : digit.isDigit = true) :
    Text.isDigit digit = true := by
  rw [Text.isDigit, decimalValue?_of_isDigit isDigit]
  rfl

theorem Numeral.readDigits_eq (areDigits : ∀ digit ∈ digits, digit.isDigit = true) :
    readDigits digits = (digits.map fun digit => digit.toNat - '0'.toNat, []) := by
  induction digits with
  | nil => rfl
  | cons digit rest induction =>
      rw [List.forall_mem_cons] at areDigits
      have noUnderscore : ∀ character others, digit = '_' → rest = character :: others → False := by
        rintro character others rfl
        cases areDigits.1
      rw [readDigits.eq_3 digit rest noUnderscore, Text.decimalValue?_of_isDigit areDigits.1,
        induction areDigits.2]
      rfl

theorem Numeral.ofDigits_eq (digits : List Char) :
    ofDigits (digits.map fun digit => digit.toNat - '0'.toNat) = Nat.ofDigitChars 10 digits 0 := by
  unfold ofDigits
  rw [List.foldl_map, Nat.ofDigitChars_eq_foldl]
  simp only [Nat.mul_comm]

end Digits

section Number

variable {number : Nat}

theorem isDigit_of_mem_repr : ∀ digit ∈ number.repr.toList, digit.isDigit = true := by
  intro digit member
  rw [Nat.toList_repr] at member
  exact Nat.isDigit_of_mem_toDigits (by decide) (by decide) member

theorem toList_repr_ne_nil : number.repr.toList ≠ [] := by
  rw [Nat.toList_repr]
  exact Nat.toDigits_ne_nil

theorem isBlank_of_mem_repr :
    ∀ character ∈ number.repr.toList, Text.isBlank character = false := fun digit member =>
  Text.isBlank_of_isDigit (Text.isDigit_of_ascii (isDigit_of_mem_repr digit member))

/-- A whole number is read back from its digits, if these are not too many. -/
theorem Numeral.readInt_repr (short : number < 10 ^ digitLimit) :
    readInt number.repr = .ok number := by
  have areDigits : ∀ digit ∈ number.repr.toList, digit.isDigit = true := isDigit_of_mem_repr
  have unsigned : splitSign number.repr.toList = (false, number.repr.toList) := by
    unfold splitSign
    split
    · rename_i sign
      cases areDigits '-' (sign ▸ List.mem_cons_self)
    · rename_i sign
      cases areDigits '+' (sign ▸ List.mem_cons_self)
    · rfl
  have noUnderscore : ∀ rest, number.repr.toList ≠ '_' :: rest := by
    intro rest same
    cases areDigits '_' (same ▸ List.mem_cons_self)
  have some : (number.repr.toList.map fun digit => digit.toNat - '0'.toNat).isEmpty = false := by
    rw [List.isEmpty_eq_false_iff, Ne, List.map_eq_nil_iff]
    exact toList_repr_ne_nil
  have few : ¬ digitLimit <
      (number.repr.toList.map fun digit => digit.toNat - '0'.toNat).length := by
    rw [List.length_map, Nat.toList_repr, Nat.not_lt]
    exact (Nat.length_toDigits_le_iff (by decide) (by decide)).mpr short
  rw [readInt, Text.trimNumeral_eq_self isBlank_of_mem_repr, unsigned]
  dsimp only
  rw [readNumber_eq noUnderscore, readDigits_eq areDigits]
  dsimp only
  rw [some, if_neg (by simp), if_neg few, ofDigits_eq, Nat.toList_repr,
    Nat.ofDigitChars_ten_toDigits]
  rfl

theorem Parameter.integer_repr (name : String) (positive : 1 ≤ number)
    (short : number < 10 ^ Numeral.digitLimit) :
    integer name 1 (.text number.repr) = .ok number := by
  have whole : looksWhole number.repr = true := by
    have kept : number.repr.toList.dropWhile (· = '-') = number.repr.toList := by
      rw [List.dropWhile_eq_self_iff]
      intro nonempty isSign
      have isDigit := isDigit_of_mem_repr _ (List.getElem_mem nonempty)
      rw [decide_eq_true_eq.mp isSign] at isDigit
      cases isDigit
    rw [looksWhole, kept, Bool.and_eq_true, Bool.not_eq_true', List.isEmpty_eq_false_iff,
      List.all_eq_true]
    exact ⟨toList_repr_ne_nil, fun digit member =>
      Text.isDigit_of_ascii (isDigit_of_mem_repr digit member)⟩
  have trimmed : Text.trim number.repr = number.repr := Text.trimBy_eq_self isBlank_of_mem_repr
  have enough : ¬ (number : Int) < 1 := by omega
  unfold integer
  dsimp only
  rw [trimmed, if_pos whole, wholeNumber, Numeral.readInt_repr short]
  exact if_neg enough

end Number

/-! ## Queries -/

namespace Http

/-- The query of an address has the number that is written in it. -/
theorem readQuery_page (number : Nat) :
    readQuery (String.ofList ("page".toList ++ '=' :: number.repr.toList)) =
      [("page", number.repr)] := by
  have isDigit : ∀ digit ∈ number.repr.toList, digit.isDigit = true := isDigit_of_mem_repr
  have plain : ∀ digit ∈ number.repr.toList, IsPlain digit := by
    intro digit member
    have small := (Char.isDigit_iff_toNat.mp (isDigit digit member)).2
    refine ⟨small.trans_lt (by decide), ?_, ?_⟩
    · rintro rfl
      cases isDigit _ member
    · rintro rfl
      cases isDigit _ member
  have single : '&' ∉ "page".toList ++ '=' :: number.repr.toList := by
    rw [List.mem_append, List.mem_cons]
    rintro (inName | isEquals | inNumber)
    · revert inName
      decide
    · cases isEquals
    · cases isDigit _ inNumber
  have name : decodedField (String.ofList "page".toList) = "page" := by
    rw [decodedField_ofList (by simp [IsPlain])]
    rfl
  have value : decodedField (String.ofList number.repr.toList) = number.repr := by
    rw [decodedField_ofList plain, String.ofList_toList]
  have pair : readPair (String.ofList ("page".toList ++ '=' :: number.repr.toList)) =
      ("page", number.repr) := by
    rw [readPair, splitAtFirst_append (by decide)]
    dsimp only
    rw [name, Option.getD_some, value]
  rw [readQuery, String.toList_ofList, splitAtEvery_of_not_mem single, List.map_singleton,
    List.filter_cons_of_pos, List.filter_nil, List.map_singleton, pair]
  rw [Bool.not_eq_true', String.isEmpty_eq_false_iff]
  exact fun empty => by simp [← String.toList_inj] at empty

end Http

end ResourceServer
