import Mathlib.Data.List.TakeWhile
import ResourceServer.Proofs.Lists
import ResourceServer.Proofs.Store.Steps
import ResourceServer.Query.Parameters
import ResourceServer.Samples.Library

/-!
# Sort orders of requests

A request spells a sort order as words with commas between them, as a list of objects, or as the
encoding of such a list.  Words are cut out, trimmed and freed from their signs; objects name their
directions; and an encoding is told by the bracket in front.  All three end in the same checks, one
field after the other, so they give the same directives in the same order, and are refused for the
same field.
-/

namespace ResourceServer

/-! ## Words with blanks around them -/

namespace Text

/-- A text consists of a word with blanks around it. -/
def Surrounds (text : String) (word : List Char) : Prop :=
  ∃ before after, (∀ character ∈ before ++ after, isBlank character = true) ∧
    text.toList = before ++ word ++ after

/-- A word neither starts nor ends with a blank. -/
def IsTrimmed (word : List Char) : Prop :=
  (∀ character ∈ word.head?, isBlank character = false) ∧
    ∀ character ∈ word.getLast?, isBlank character = false

-- Not by inference, which may look for a counterexample among all characters.
instance (word : List Char) : Decidable (IsTrimmed word) :=
  @instDecidableAnd _ _ (Option.decidableForallMem _) (Option.decidableForallMem _)

section Trimming

variable {characters before after word : List Char}

theorem dropWhile_isBlank (front : ∀ character ∈ characters.head?, isBlank character = false) :
    characters.dropWhile isBlank = characters := by
  cases characters with
  | nil => rfl
  | cons character rest => exact List.dropWhile_cons_of_neg (by simp [front character rfl])

theorem dropWhile_blanks (blank : ∀ character ∈ before, isBlank character = true) :
    (before ++ word).dropWhile isBlank = word.dropWhile isBlank :=
  List.dropWhile_append_of_pos blank

/-- Trimming finds the word that blanks stand around. -/
theorem trim_surrounds {text : String} (surrounds : Surrounds text word) (trimmed : IsTrimmed word)
    (nonempty : word ≠ []) : trim text = String.ofList word := by
  obtain ⟨before, after, blank, isText⟩ := surrounds
  rw [List.forall_mem_append] at blank
  have fromFront : (before ++ word ++ after).dropWhile isBlank = word ++ after := by
    rw [List.append_assoc, dropWhile_blanks blank.1]
    refine dropWhile_isBlank fun character isHead => trimmed.1 character ?_
    rwa [List.head?_append_of_ne_nil _ nonempty] at isHead
  have fromBack : (word ++ after).reverse.dropWhile isBlank = word.reverse := by
    rw [List.reverse_append, dropWhile_blanks fun character member =>
      blank.2 character (List.mem_reverse.mp member)]
    exact dropWhile_isBlank fun character isHead => trimmed.2 character (by
      rwa [List.head?_reverse] at isHead)
  rw [trim, trimBy, isText, fromFront, fromBack, List.reverse_reverse]

end Trimming

/-- A spelling of a lowercase word in letters of any case reads as the word. -/
theorem lowerWord_of_map {spelling word : String} (noKelvin : '\u212a' ∉ word.toList)
    (spelled : spelling.toList.map Char.toLower = word.toList) : lowerWord spelling = word := by
  have each : ∀ character ∈ spelling.toList,
      (if character = '\u212a' then 'k' else character.toLower) = character.toLower := by
    intro character member
    refine if_neg ?_
    rintro rfl
    refine noKelvin ?_
    rw [← spelled]
    exact List.mem_map_of_mem member
  rw [lowerWord, List.map_congr_left each, spelled, String.ofList_toList]

end Text

/-! ## Encoded lists -/

namespace Json

/-- The separators of encoded values are blank. -/
theorem isBlank_of_isSpace {character : Char} (isSpace : Cursor.isSpace character = true) :
    Text.isBlank character = true := by
  simp only [Cursor.isSpace, Bool.or_eq_true, decide_eq_true_eq] at isSpace
  obtain ((rfl | rfl) | rfl) | rfl := isSpace
  all_goals decide

/-- What is read between braces is an object. -/
theorem readMembers_isObject {depth fuel : Nat} {cursor next : Cursor} {read : Record} {value : Value}
    (done : readMembers depth fuel cursor read = .ok (value, next)) :
    ∃ members, value = .object members := by
  induction fuel generalizing cursor read with
  | zero => cases done
  | succ fuel induction =>
      unfold readMembers at done
      split at done
      · split at done
        · cases done
        · dsimp only at done
          split at done
          · split at done
            · cases done
            · split at done
              · cases done
                exact ⟨_, rfl⟩
              · exact induction done
              · cases done
          · cases done
      · cases done

/-- No number is a list. -/
theorem readNumber_notList {cursor next : Cursor} {items : List Value} :
    readNumber cursor ≠ .ok (.list items, next) := by
  intro done
  unfold readNumber at done
  dsimp only at done
  repeat' split at done
  all_goals cases done

/-- What is read as a list starts with a bracket. -/
theorem readValue_list {depth fuel : Nat} {cursor next : Cursor} {items : List Value}
    (done : readValue depth fuel cursor = .ok (.list items, next)) :
    cursor.rest.head? = some '[' := by
  cases fuel with
  | zero => cases done
  | succ fuel =>
      unfold readValue at done
      split at done
      · split at done <;> cases done
      · cases done
      · cases done
      · rename_i isRest
        rw [isRest]
        rfl
      · dsimp only at done
        split at done
        · cases done
        · obtain ⟨members, isObject⟩ := readMembers_isObject done
          cases isObject
      · split at done
        · rename_i word value found
          have noList : ∀ entry ∈ keywords, ∀ items, entry.2 ≠ .list items := by
            simp [keywords]
          cases done
          exact absurd rfl (noList _ (List.mem_of_find?_eq_some found) items)
        · exact absurd done readNumber_notList

theorem read_ofList (characters : List Char) :
    read (String.ofList characters) =
      if characters.head? = some '\ufeff' then .error (.malformed .byteOrderMark 0)
      else readCharacters characters := by
  rw [read, String.toList_ofList]

/-- A text that holds a list starts with a bracket, after separators that are blank. -/
theorem dropWhile_of_read {text : String} {items : List Value}
    (decodes : read text = .ok (.list items)) :
    (text.toList.dropWhile Text.isBlank).head? = some '[' := by
  unfold read at decodes
  dsimp only at decodes
  split at decodes
  · cases decodes
  · unfold readCharacters at decodes
    split at decodes
    · cases decodes
    · rename_i value next isRead
      dsimp only at decodes
      split at decodes
      · cases decodes
        have bracket : (text.toList.drop (text.toList.takeWhile Cursor.isSpace).length).head? =
            some '[' := readValue_list isRead
        have blank : ∀ character ∈ text.toList.takeWhile Cursor.isSpace,
            Text.isBlank character = true :=
          fun character member => isBlank_of_isSpace (List.mem_takeWhile_imp member)
        have cut := List.takeWhile_append_dropWhile (p := Cursor.isSpace) (l := text.toList)
        generalize text.toList.takeWhile Cursor.isSpace = spaces at *
        generalize text.toList.dropWhile Cursor.isSpace = rest at *
        rw [← cut, List.drop_left] at bracket
        rw [← cut, Text.dropWhile_blanks blank, Text.dropWhile_isBlank, bracket]
        rw [bracket]
        rintro character same
        cases same
        rfl
      · cases decodes

end Json

/-! ## Spellings of an order -/

/-- A resource can be sorted by a field when it lists it, or when it is the name of one of its counts. -/
def Resource.SortsBy (resource : Resource) (field : String) : Prop :=
  field ∈ resource.sortable ∨ ∃ relation ∈ resource.aggregates, field = relation ++ "_count"

namespace SortDirective

/-- A field name that can stand among words: it is not empty, has no comma and no blanks around it,
and does not start like a sign or an encoded list. -/
structure IsPlain (field : List Char) : Prop where
  nonempty : field ≠ []
  noComma : ',' ∉ field
  trimmed : Text.IsTrimmed field
  noMinus : field.head? ≠ some '-'
  noBracket : field.head? ≠ some '['

instance (field : List Char) : Decidable (IsPlain field) :=
  decidable_of_iff
    (field ≠ [] ∧ ',' ∉ field ∧ Text.IsTrimmed field ∧ field.head? ≠ some '-' ∧ field.head? ≠ some '[')
    ⟨fun ⟨nonempty, noComma, trimmed, noMinus, noBracket⟩ =>
      ⟨nonempty, noComma, trimmed, noMinus, noBracket⟩,
    fun plain => ⟨plain.nonempty, plain.noComma, plain.trimmed, plain.noMinus, plain.noBracket⟩⟩

/-- The word for a directive: descending order has a minus sign in front of the field. -/
def spelling (directive : SortDirective) : List Char :=
  match directive.direction with
  | .ascending => directive.field.toList
  | .descending => '-' :: directive.field.toList

/-- A text spells directives by their words, in order, with blanks and commas between them. -/
def SpelledBy (directives : List SortDirective) (text : String) : Prop :=
  ∃ parts, List.Forall₂ (fun directive part => Text.Surrounds part directive.spelling)
    directives parts ∧ text = String.intercalate "," parts

/-- An object describes a directive by its field and its direction, in letters of any case;
ascending order need not be given. -/
def DescribedBy (directive : SortDirective) (entry : Value) : Prop :=
  ∃ members, entry = .object members ∧ Record.get? members "field" = some (.text directive.field) ∧
    ((Record.get? members "direction" = none ∧ directive.direction = .ascending) ∨
      ∃ word, Record.get? members "direction" = some (.text word) ∧
        word.toList.map Char.toLower = directive.direction.word.toList)

/-- The check that every directive undergoes, however it was spelled. -/
def admitted (resource : Resource) (directive : SortDirective) : Except Error SortDirective :=
  if (allowedFields resource).contains directive.field then .ok directive
  else .error (.fieldNotAllowed directive.field resource.name .sortable)

section Admission

variable {resource : Resource} {directive : SortDirective}

theorem contains_allowedFields {field : String} :
    (allowedFields resource).contains field = true ↔ resource.SortsBy field := by
  rw [List.contains_iff_mem, allowedFields, List.mem_append, List.mem_map, Resource.SortsBy]
  refine or_congr_right (exists_congr fun relation => and_congr_right fun _ => ?_)
  exact eq_comm

theorem admitted_of_sortsBy (sortsBy : resource.SortsBy directive.field) :
    admitted resource directive = .ok directive :=
  if_pos (contains_allowedFields.mpr sortsBy)

theorem admitted_of_not_sortsBy (refused : ¬ resource.SortsBy directive.field) :
    admitted resource directive =
      .error (.fieldNotAllowed directive.field resource.name .sortable) :=
  if_neg (contains_allowedFields.not.mpr refused)

/-- Directives that can all be sorted by are taken as they are. -/
theorem mapM_admitted {directives : List SortDirective}
    (sortsBy : ∀ directive ∈ directives, resource.SortsBy directive.field) :
    directives.mapM (admitted resource) = .ok directives := by
  refine mapM_of_forall₂ (List.forall₂_same.mpr ?_)
  intro directive member
  exact admitted_of_sortsBy (sortsBy directive member)

/-- The first field that cannot be sorted by is refused. -/
theorem mapM_admitted_refused {earlier later : List SortDirective}
    (sortsBy : ∀ directive ∈ earlier, resource.SortsBy directive.field)
    (refused : ¬ resource.SortsBy directive.field) :
    (earlier ++ directive :: later).mapM (admitted resource) =
      .error (.fieldNotAllowed directive.field resource.name .sortable) := by
  rw [List.mapM_append, mapM_admitted sortsBy, List.mapM_cons, admitted_of_not_sortsBy refused]
  rfl

/-- A direction that is spelled in letters of any case leads to the check. -/
theorem make_eq_admitted {word : String}
    (spelled : word.toList.map Char.toLower = directive.direction.word.toList) :
    make resource directive.field (.text word) = admitted resource directive := by
  have noKelvin : ∀ direction : SortDirection, '\u212a' ∉ direction.word.toList := by
    rintro ⟨⟩ <;> decide
  have isWord : ∀ direction : SortDirection, SortDirection.ofWord? direction.word = some direction := by
    rintro ⟨⟩ <;> rfl
  have lowered : Text.lowerWord (Value.plain (.text word)) = directive.direction.word :=
    Text.lowerWord_of_map (noKelvin _) spelled
  rw [make, lowered, isWord]
  rfl

theorem lower_word (direction : SortDirection) :
    direction.word.toList.map Char.toLower = direction.word.toList := by
  cases direction <;> decide

end Admission

/-! ## The three readers -/

section Readers

variable {resource : Resource} {directive : SortDirective} {directives : List SortDirective}

theorem isTrimmed_spelling (plain : IsPlain directive.field.toList) :
    Text.IsTrimmed directive.spelling := by
  unfold spelling
  split
  · exact plain.trimmed
  · refine ⟨?_, ?_⟩
    · rintro character same
      cases same
      decide
    · rw [List.getLast?_cons_of_ne_nil plain.nonempty]
      exact plain.trimmed.2

theorem spelling_ne_nil (plain : IsPlain directive.field.toList) : directive.spelling ≠ [] := by
  unfold spelling
  split
  · exact plain.nonempty
  · exact List.cons_ne_nil _ _

theorem comma_not_mem_spelling (plain : IsPlain directive.field.toList) :
    ',' ∉ directive.spelling := by
  unfold spelling
  split
  · exact plain.noComma
  · rw [List.mem_cons, not_or]
    exact ⟨by decide, plain.noComma⟩

theorem bracket_not_head_spelling (plain : IsPlain directive.field.toList) :
    directive.spelling.head? ≠ some '[' := by
  unfold spelling
  split
  · exact plain.noBracket
  · rw [List.head?_cons]
    decide

/-- The word of a directive is read as the directive. -/
theorem ofWord_spelling (plain : IsPlain directive.field.toList) :
    ofWord resource (String.ofList directive.spelling) = admitted resource directive := by
  have unsigned : directive.field.toList.dropWhile (· = '-') = directive.field.toList := by
    cases characters : directive.field.toList with
    | nil => rfl
    | cons first rest =>
        have noMinus := plain.noMinus
        rw [characters, List.head?_cons, Ne, Option.some.injEq] at noMinus
        exact List.dropWhile_cons_of_neg (by simpa using noMinus)
  have isField : directive.spelling.dropWhile (· = '-') = directive.field.toList := by
    unfold spelling
    split
    · exact unsigned
    · rw [List.dropWhile_cons_of_pos (by simp), unsigned]
  have isDirection : (if directive.spelling.head? = some '-' then SortDirection.descending
      else .ascending) = directive.direction := by
    unfold spelling
    split
    · rename_i ascending
      rw [if_neg plain.noMinus, ascending]
    · rename_i descending
      rw [List.head?_cons, if_pos rfl, descending]
  rw [ofWord, String.toList_ofList, isField, isDirection, String.ofList_toList]
  exact make_eq_admitted (lower_word _)

/-- An object that describes a directive is read as the directive. -/
theorem ofEntry_describedBy {entry : Value} (described : directive.DescribedBy entry) :
    ofEntry resource entry = admitted resource directive := by
  obtain ⟨members, rfl, isField, direction⟩ := described
  have isText : Record.get members "field" = .text directive.field := by
    rw [Record.get]
    change (Record.get? members "field").getD .null = _
    rw [isField]
    rfl
  rw [ofEntry, isText]
  obtain ⟨missing, ascending⟩ | ⟨word, given, spelled⟩ := direction
  · rw [missing, Option.getD_none, ← ascending]
    exact make_eq_admitted (lower_word _)
  · rw [given, Option.getD_some]
    exact make_eq_admitted spelled

/-- A text that spells directives is cut into their words. -/
theorem words_of_spelledBy {text : String} (spelled : SpelledBy directives text)
    (plain : ∀ directive ∈ directives, IsPlain directive.field.toList) :
    Parameter.words "sort" (.text text) =
      .ok (directives.map fun directive => String.ofList directive.spelling) := by
  obtain ⟨parts, surrounds, rfl⟩ := spelled
  have each := (List.forall₂_and_left _ _).mpr ⟨plain, surrounds⟩
  have noComma : ∀ part ∈ parts, ',' ∉ part.toList := by
    intro part member
    obtain ⟨directive, _, isPlain, before, after, blank, isPart⟩ := exists_of_mem_right each member
    rw [List.forall_mem_append] at blank
    rw [isPart, List.mem_append, List.mem_append]
    rintro ((comma | comma) | comma)
    · exact absurd (blank.1 ',' comma) (by decide)
    · exact comma_not_mem_spelling isPlain comma
    · exact absurd (blank.2 ',' comma) (by decide)
  have trims : directives.map (fun directive => String.ofList directive.spelling) =
      parts.map Text.trim := by
    refine map_eq_of_forall₂ each fun directive part holds => Eq.symm ?_
    exact Text.trim_surrounds holds.2 (isTrimmed_spelling holds.1) (spelling_ne_nil holds.1)
  have noneEmpty : ∀ word ∈ directives.map fun directive => String.ofList directive.spelling,
      (!word.isEmpty) = true := by
    intro word member
    obtain ⟨directive, isDirective, rfl⟩ := List.mem_map.mp member
    simpa using spelling_ne_nil (plain directive isDirective)
  rw [Parameter.words]
  cases parts with
  | nil =>
      cases surrounds
      rfl
  | cons part parts =>
      have cut : splitAtEvery ',' (String.intercalate "," (part :: parts)).toList =
          (part :: parts).map String.toList := by
        rw [String.toList_intercalate]
        refine splitAtEvery_intercalate (by simp) ?_
        intro characters member
        obtain ⟨part, isPart, rfl⟩ := List.mem_map.mp member
        exact noComma part isPart
      have parted : ((part :: parts).map String.toList).map String.ofList = part :: parts := by
        simp [Function.comp_def]
      rw [cut, parted, Parameter.trimmed, ← trims, List.filter_eq_self.mpr noneEmpty]

/-- A text that spells directives is not taken for an encoded list. -/
theorem not_isEncodedList {text : String} (spelled : SpelledBy directives text)
    (plain : ∀ directive ∈ directives, IsPlain directive.field.toList) :
    isEncodedList text = false := by
  have noBracket : (Text.trimLeft text.toList).head? ≠ some '[' := by
    obtain ⟨parts, surrounds, rfl⟩ := spelled
    cases surrounds with
    | nil => exact nofun
    | @cons directive part directives parts surrounds _ =>
        have isPlain := plain directive List.mem_cons_self
        obtain ⟨before, after, blank, isPart⟩ := surrounds
        rw [List.forall_mem_append] at blank
        have split : ∃ rest, (String.intercalate "," (part :: parts)).toList =
            before ++ (directive.spelling ++ rest) := by
          rw [String.toList_intercalate, List.map_cons, isPart]
          cases parts.map String.toList with
          | nil => exact ⟨after, by simp⟩
          | cons next others =>
              rw [List.intercalate_cons_cons]
              exact ⟨_, by simp only [List.append_assoc]; rfl⟩
        obtain ⟨rest, split⟩ := split
        have first : (directive.spelling ++ rest).head? = directive.spelling.head? :=
          List.head?_append_of_ne_nil _ (spelling_ne_nil isPlain)
        rw [split, Text.trimLeft, Text.dropWhile_blanks blank.1, Text.dropWhile_isBlank, first]
        · exact bracket_not_head_spelling isPlain
        · rw [first]
          exact (isTrimmed_spelling isPlain).1
  exact decide_eq_false noBracket

theorem ofValue_spelledBy {text : String} (spelled : SpelledBy directives text)
    (plain : ∀ directive ∈ directives, IsPlain directive.field.toList) :
    ofValue resource (.text text) = directives.mapM (admitted resource) := by
  have isText : ofValue resource (.text text) =
      Parameter.words "sort" (.text text) >>= fun words => words.mapM (ofWord resource) := by
    simp only [ofValue, not_isEncodedList spelled plain]
    rfl
  have words : List.Forall₂ (fun word directive => ofWord resource word = admitted resource directive)
      (directives.map fun directive => String.ofList directive.spelling) directives := by
    rw [List.forall₂_map_left_iff, List.forall₂_same]
    exact fun directive member => ofWord_spelling (plain directive member)
  rw [isText, words_of_spelledBy spelled plain]
  exact mapM_eq_of_forall₂ words fun _ _ same => same

theorem ofValue_describedBy {entries : List Value}
    (described : List.Forall₂ DescribedBy directives entries) :
    ofValue resource (.list entries) = directives.mapM (admitted resource) := by
  change entries.mapM (ofEntry resource) = _
  exact mapM_eq_of_forall₂ described.flip fun _ _ holds => ofEntry_describedBy holds

/-- The encoding of a list is read as the list. -/
theorem ofValue_encoded {encoded : String} {entries : List Value}
    (decodes : Json.read encoded = .ok (.list entries)) :
    ofValue resource (.text encoded) = ofValue resource (.list entries) := by
  have isEncoded : isEncodedList encoded = true := by
    rw [isEncodedList, Text.trimLeft, Json.dropWhile_of_read decodes]
    rfl
  simp only [ofValue, isEncoded, Parameter.decoded, decodes]
  rfl

end Readers

/-- A sort order of plain fields is read alike from the words for its directives, from objects that
describe them and from the encoding of these objects: as the directives when the resource can be
sorted by every field, and else not at all, for the first field that it cannot be sorted by. -/
theorem encodings_agree (resource : Resource) {directives : List SortDirective}
    (plain : ∀ directive ∈ directives, IsPlain directive.field.toList) {text encoded : String}
    {entries : List Value} (spelled : SpelledBy directives text)
    (described : List.Forall₂ DescribedBy directives entries)
    (decodes : Json.read encoded = .ok (.list entries)) :
    ∃ result, (ofValue resource (.text text) = result ∧ ofValue resource (.list entries) = result ∧
        ofValue resource (.text encoded) = result) ∧
      ((∀ directive ∈ directives, resource.SortsBy directive.field) → result = .ok directives) ∧
      ∀ earlier first later, directives = earlier ++ first :: later →
        (∀ directive ∈ earlier, resource.SortsBy directive.field) →
          ¬ resource.SortsBy first.field →
            result = .error (.fieldNotAllowed first.field resource.name .sortable) := by
  have fromEntries : ofValue resource (.list entries) = directives.mapM (admitted resource) :=
    ofValue_describedBy described
  refine ⟨directives.mapM (admitted resource),
    ⟨ofValue_spelledBy spelled plain, fromEntries, (ofValue_encoded decodes).trans fromEntries⟩,
    mapM_admitted, ?_⟩
  rintro earlier first later rfl sortsBy refused
  exact mapM_admitted_refused sortsBy refused

theorem encodings_agree_nodes :
    let directives : List SortDirective := [⟨"rank", .descending⟩, ⟨"parent_id", .ascending⟩]
    let entries : List Value := [.object [("field", .text "rank"), ("direction", .text "DESC")],
      .object [("field", .text "parent_id")]]
    let encoded :=
      "[\x7b\"field\": \"rank\", \"direction\": \"DESC\"\x7d, \x7b\"field\": \"parent_id\"\x7d]"
    let refused : Except Error (List SortDirective) :=
      .error (.fieldNotAllowed "parent_id" "nodes" .sortable)
    ((∀ directive ∈ directives, IsPlain directive.field.toList) ∧
        SpelledBy directives "-rank ,  parent_id" ∧ List.Forall₂ DescribedBy directives entries ∧
        Json.read encoded = .ok (.list entries)) ∧
      ofValue Samples.Library.nodes (.text "-rank ,  parent_id") = refused ∧
        ofValue Samples.Library.nodes (.list entries) = refused ∧
        ofValue Samples.Library.nodes (.text encoded) = refused := by
  intro directives entries encoded refused
  have plain : ∀ directive ∈ directives, IsPlain directive.field.toList := by decide
  have spelled : SpelledBy directives "-rank ,  parent_id" := by
    refine ⟨["-rank ", "  parent_id"], .cons ?_ (.cons ?_ .nil), rfl⟩
    · exact ⟨[], [' '], List.forall_mem_singleton.mpr rfl, rfl⟩
    · exact ⟨[' ', ' '], [], List.forall_mem_cons.mpr ⟨rfl, List.forall_mem_singleton.mpr rfl⟩, rfl⟩
  have described : List.Forall₂ DescribedBy directives entries :=
    .cons ⟨_, rfl, rfl, .inr ⟨"DESC", rfl, by decide⟩⟩ (.cons ⟨_, rfl, rfl, .inl ⟨rfl, rfl⟩⟩ .nil)
  have decodes : Json.read encoded = .ok (.list entries) := (Json.read_ofList _).trans rfl
  have sortsBy : ∀ directive ∈ directives.take 1, Samples.Library.nodes.SortsBy directive.field := by
    simp only [← contains_allowedFields]
    decide
  have isRefused : ¬ Samples.Library.nodes.SortsBy "parent_id" := by
    rw [← contains_allowedFields]
    decide
  obtain ⟨result, ⟨fromText, fromList, fromEncoded⟩, _, first⟩ :=
    encodings_agree Samples.Library.nodes plain spelled described decodes
  have isResult := first (directives.take 1) _ [] rfl sortsBy isRefused
  rw [isResult] at fromText fromList fromEncoded
  exact ⟨⟨plain, spelled, described, decodes⟩, fromText, fromList, fromEncoded⟩

end SortDirective

end ResourceServer
