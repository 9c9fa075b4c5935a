import ResourceServer.Proofs.Memory.Keys
import ResourceServer.Proofs.Sql.Writing

/-!
# Rows that a key asks for

A database finds the row of a key by a test of the key column.  For a key that is compared as it
stands, the test selects the rows that a store in memory has under the key: whole numbers, flags and
doubles ask for the number that they are equal to, and null, texts and moments for none.  A whole
number beyond 64 bits cannot be sent, and a text that spells a number asks for this number in a
database and for nothing in memory.  Lists and objects are no keys of either.
-/

namespace ResourceServer

namespace Moment

/-- A text of digits, at least one. -/
def IsDigits (characters : List Char) : Prop :=
  characters ≠ [] ∧ ∀ character ∈ characters, character.isDigit = true

theorem padded_isDigits (width value : Nat) : IsDigits (padded width value).toList := by
  have digits : IsDigits (toString value).toList := by
    have isRepr : (toString value).toList = Nat.toDigits 10 value := by
      change (String.ofList (Nat.toDigits 10 value)).toList = _
      rw [String.toList_ofList]
    rw [isRepr]
    exact ⟨Nat.toDigits_ne_nil, fun character member =>
      Nat.isDigit_of_mem_toDigits (by decide) (Nat.le_refl 10) member⟩
  unfold padded
  dsimp only
  rw [String.toList_append, String.toList_ofList]
  refine ⟨List.append_ne_nil_of_right_ne_nil _ digits.1, fun character member => ?_⟩
  cases List.mem_append.mp member with
  | inl isZero =>
      rw [List.eq_of_mem_replicate isZero]
      rfl
  | inr isDigit => exact digits.2 character isDigit

/-- The text of a clock begins with digits and a hyphen, and it ends with a digit. -/
theorem clockText_toList (moment : Moment) : ∃ year rest last,
    moment.clockText.toList = year ++ '-' :: (rest ++ [last]) ∧ IsDigits year ∧
      last.isDigit = true := by
  obtain ⟨last, isLast⟩ : ∃ last, (padded 6 moment.microsecond).toList.getLast? = some last := by
    rw [← Option.isSome_iff_exists, List.getLast?_isSome]
    exact (padded_isDigits 6 moment.microsecond).1
  obtain ⟨before, isMicro⟩ := List.getLast?_eq_some_iff.mp isLast
  refine ⟨(padded 4 moment.year).toList, ((padded 2 moment.month).toList ++ '-' ::
    (padded 2 moment.day).toList) ++ ' ' :: (moment.timeText.toList ++ '.' :: before), last, ?_,
    padded_isDigits 4 moment.year, ?_⟩
  · simp [clockText, dateText, String.toList_append, isMicro]
  · exact (padded_isDigits 6 moment.microsecond).2 last (by simp [isMicro])

end Moment

namespace Sql

theorem isSpace_of_isDigit {character : Char} (isDigit : character.isDigit = true) :
    Cell.isSpace character = false := by
  rw [Char.isDigit, Bool.and_eq_true, decide_eq_true_eq, decide_eq_true_eq] at isDigit
  have bounds : 48 ≤ character.toNat ∧ character.toNat ≤ 57 := isDigit
  unfold Cell.isSpace
  rw [Bool.or_eq_false_iff, beq_eq_false_iff_ne, Bool.and_eq_false_iff]
  refine ⟨?_, .inr ?_⟩
  · rintro rfl
    exact absurd bounds.1 (by decide)
  · rw [decide_eq_false_iff_not]
    omega

/-- Digits that a hyphen follows spell no number. -/
theorem unsigned?_hyphen {digits : List Char} (areDigits : ∀ digit ∈ digits, digit.isDigit = true)
    (rest : List Char) : Cell.unsigned? false (digits ++ '-' :: rest) = none := by
  have behind : (digits ++ '-' :: rest).dropWhile Char.isDigit = '-' :: rest := by
    rw [List.dropWhile_append_of_pos areDigits]
    rfl
  have noExponent : Cell.exponent? ('-' :: rest) = none := by
    unfold Cell.exponent?
    exact if_neg (by decide)
  unfold Cell.unsigned?
  dsimp only
  rw [behind]
  split
  · rename_i impossible
    cases impossible
  · rename_i impossible
    cases impossible
  · rw [noExponent]
    split
    · rfl
    · rfl

/-- The clock of a moment spells no number. -/
theorem ofNumeral?_clockText (moment : Moment) : Cell.ofNumeral? moment.clockText = none := by
  obtain ⟨year, rest, last, isText, ⟨notEmpty, digits⟩, isDigit⟩ := moment.clockText_toList
  obtain ⟨first, others, rfl⟩ := List.exists_cons_of_ne_nil notEmpty
  have isFirst := digits first List.mem_cons_self
  have trimmed : ((moment.clockText.toList.dropWhile Cell.isSpace).reverse.dropWhile
      Cell.isSpace).reverse = moment.clockText.toList := by
    rw [isText, List.cons_append, List.dropWhile_cons_of_neg (by simp [isSpace_of_isDigit isFirst]),
      ← List.cons_append, ← List.cons_append, ← List.append_assoc, List.reverse_append,
      List.reverse_singleton, List.singleton_append,
      List.dropWhile_cons_of_neg (by simp [isSpace_of_isDigit isDigit])]
    simp
  unfold Cell.ofNumeral?
  dsimp only
  rw [trimmed]
  split
  · rename_i negative
    rw [isText, List.cons_append, List.cons.injEq] at negative
    rw [negative.1] at isFirst
    cases isFirst
  · rename_i positive
    rw [isText, List.cons_append, List.cons.injEq] at positive
    rw [positive.1] at isFirst
    cases isFirst
  · rw [isText]
    exact unsigned?_hyphen digits _

/-- Whether a key is compared as it stands: a whole number fits into a word, and a text spells no
number. -/
def asksPlainly : Value → Bool
  | .int number => fitsWord number
  | .text spelled => (Cell.ofNumeral? spelled).isNone
  | _ => true

section

variable {resource : Resource} {column : Column} {row : Row} {number : Int}

theorem selects_compare (isInteger : column.type = .integer)
    (isNumber : row.cell column.name = .integer number) (cell : Cell) :
    (compareCell column .eq row cell).selects =
      (!cell.isNull && (Cell.integer number).order cell.asNumber == .eq) := by
  have notNull : (Cell.integer number).isNull = false := rfl
  unfold compareCell columnAffinity Cell.orderUnder?
  rw [isInteger, isNumber, notNull, Bool.false_or]
  cases cell.isNull with
  | true => rfl
  | false =>
      change (Truth.ofBool ((Cell.integer number).order cell.asNumber == .eq)).selects = _
      cases (Cell.integer number).order cell.asNumber <;> rfl

theorem coincides_eq_same (number : Int) (key : Value) :
    (Value.int number).coincides key = (Value.int number).same key := by
  rw [Value.coincides, Value.isSameNaN, Bool.false_or]
  intro _ _ isFloat
  cases isFloat

theorem coincides_eq (number : Int) (key : Value) :
    (Value.int number).coincides key = Value.sameAsNumber (.whole number) key := by
  rw [coincides_eq_same, Value.same]

/-- The cells of the test for a key, which select the row with the key. -/
structure Asks (column : Column) (key : Value) (cells : Test Cell) : Prop where
  sent : (equalityTest column true key).mapParameters Operand.toCell = .ok cells
  selects : ∀ (row : Row) (number : Int), row.cell column.name = .integer number →
    (cells.outcome row).selects = (Value.int number).coincides key

theorem asks_compare (isInteger : column.type = .integer) {key : Value} (cell : Cell)
    (isCompared : equalityTest column true key = .compare column .eq (.compared column key))
    (sent : (Operand.compared column key).toCell = .ok cell)
    (equal : ∀ number : Int, (!cell.isNull && (Cell.integer number).order cell.asNumber == .eq) =
      Value.sameAsNumber (.whole number) key) :
    Asks column key (.compare column .eq cell) where
  sent := by
    rw [isCompared, Test.mapParameters, sent]
    rfl
  selects row number isNumber := by
    rw [Test.outcome, selects_compare isInteger isNumber, equal, coincides_eq]

theorem exists_asks (isInteger : column.type = .integer) {key : Value} (isKey : key.isKey = true)
    (plain : asksPlainly key = true) : ∃ cells, Asks column key cells := by
  have compared : ∀ value : Value, Operand.compared column value =
      ⟨.ofComparison .integer value, value⟩ := by
    intro value
    rw [Operand.compared, isInteger]
  cases key with
  | null =>
      refine ⟨.empty column true, rfl, fun row number isNumber => ?_⟩
      rw [Test.outcome, isNumber]
      rfl
  | bool flag =>
      refine ⟨.flag column true flag, rfl, fun row number isNumber => ?_⟩
      rw [Test.outcome, if_pos rfl, selects_compare isInteger isNumber, coincides_eq]
      rfl
  | int key =>
      refine ⟨_, asks_compare isInteger (.integer key) rfl ?_ fun number => rfl⟩
      rw [compared]
      exact if_pos plain
  | float double =>
      refine ⟨_, asks_compare isInteger (if double.isNaN then .null else .real double) rfl
        (compared _ ▸ rfl) fun number => ?_⟩
      change _ = ((Value.Number.whole number).order? (.double double) == some .eq)
      cases isNaN : double.isNaN with
      | true =>
          have nan : Value.Number.isNaN (.double double) = true := isNaN
          rw [Value.Number.order?_eq_none nan]
          rfl
      | false =>
          have isNumber : Value.Number.isNaN (.double double) = false := isNaN
          have isWhole : Value.Number.isNaN (.whole number) = false := rfl
          rw [Value.Number.order?_eq isWhole isNumber]
          change (((Value.Number.whole number).order? (.double double)).getD .eq == .eq) = _
          rw [Value.Number.order?_eq isWhole isNumber]
          rfl
  | text spelled =>
      refine ⟨_, asks_compare isInteger (.text spelled) rfl (compared _ ▸ rfl)
        fun number => ?_⟩
      have notNumber : Cell.asNumber (.text spelled) = .text spelled := by
        rw [Cell.asNumber, Option.isNone_iff_eq_none.mp plain]
        rfl
      rw [notNumber]
      rfl
  | moment moment =>
      refine ⟨_, asks_compare isInteger (.text moment.clockText) rfl (compared _ ▸ rfl)
        fun number => ?_⟩
      have notNumber : Cell.asNumber (.text moment.clockText) = .text moment.clockText := by
        rw [Cell.asNumber, ofNumeral?_clockText]
        rfl
      rw [notNumber]
      rfl
  | list items => cases isKey
  | object members => cases isKey

/-- What is no key can be prepared, but it is not sent. -/
theorem unsent_of_not_isKey (isInteger : column.type = .integer) {key : Value}
    (notKey : key.isKey = false) :
    ∃ prepared error, (equalityTest column true key).mapParameters Operand.prepare = .ok prepared ∧
      prepared.mapParameters Cell.ofValue = .error error := by
  have prepared : equalityTest column true key = .compare column .eq (.compared column key) →
      (Operand.compared column key).prepare = .ok key →
        (equalityTest column true key).mapParameters Operand.prepare =
          .ok (.compare column .eq key) := by
    intro isCompared isPrepared
    rw [isCompared, Test.mapParameters, isPrepared]
    rfl
  cases key with
  | list items =>
      refine ⟨_, _, prepared rfl ?_, rfl⟩
      rw [Operand.compared, isInteger]
      rfl
  | object members =>
      refine ⟨_, _, prepared rfl ?_, rfl⟩
      rw [Operand.compared, isInteger]
      rfl
  | _ => cases notKey

end

end Sql

end ResourceServer
