import ResourceServer.Proofs.Sql.Typing
import ResourceServer.Proofs.Value.Calendar

/-!
# Values that columns keep

A column keeps a value when the cell that is written for it is read as the value again.  The cells that
keep values are of few forms, one for each kind of value, and two of them in columns of one type are
equal exactly when their values are.  So a database that compares cells finds the same repetitions
as a store that compares values.
-/

namespace ResourceServer

/-- Whether a value is plainly of a column type: null, a whole number of 64 bits, a text or a flag of the
type, or a double that is not whole. -/
def ColumnType.keepsPlainly (type : ColumnType) : Value → Bool
  | .null => true
  | .float double => type == .real && !double.isNaN && double.toInt?.isNone
  | value => type.isPlain && type.owns value

namespace Sql

/-- The forms of cells that stand for values in a column of some type, with these values. -/
inductive Cell.Form (type : ColumnType) : Cell → Value → Prop
  | null : Form type .null .null
  | flag (isFlag : type = .boolean) (flag : Bool) :
      Form type (.integer (if flag then 1 else 0)) (.bool flag)
  | moment (isMoment : type = .moment) {spelled : String} {moment : Moment}
      (read : Cell.readMoment spelled = .moment moment) (stored : moment.storedText? = some spelled) :
      Form type (.text spelled) (.moment moment)
  | integer (notFlag : type ≠ .boolean) (notMoment : type ≠ .moment) (number : Int) :
      Form type (.integer number) (.int number)
  | real (notFlag : type ≠ .boolean) (notMoment : type ≠ .moment) {double : Binary64}
      (isNumber : double.isNaN = false) : Form type (.real double) (.float double)
  | text (notFlag : type ≠ .boolean) (notMoment : type ≠ .moment) (spelled : String) :
      Form type (.text spelled) (.text spelled)

/-- A cell of a column type stands for a value: the value is written as this cell, and read from it
again. -/
structure Cell.StandsFor (type : ColumnType) (value : Value) (cell : Cell) : Prop where
  written : (Operand.toCell ⟨.ofType type, value⟩).map (Affinity.ofType type).stored = .ok cell
  read : cell.read type = value

section

variable {type : ColumnType} {value other : Value} {cell left right : Cell}

theorem Cell.Form.read_eq (form : Cell.Form type cell value) : cell.read type = value := by
  cases form with
  | null => rfl
  | flag isFlag flag =>
      subst isFlag
      cases flag <;> rfl
  | moment isMoment read stored =>
      subst isMoment
      exact read
  | integer notFlag => exact if_neg notFlag
  | real notFlag => exact if_neg notFlag
  | text notFlag notMoment =>
      cases type with
      | boolean => exact absurd rfl notFlag
      | moment => exact absurd rfl notMoment
      | _ => rfl

theorem Cell.StandsFor.null : Cell.StandsFor type .null .null := by
  cases type <;> exact ⟨rfl, rfl⟩

/-- Whole numbers of 64 bits, texts and flags have cells that stand for them in columns of their
types. -/
theorem Cell.StandsFor.ofPlain (plain : type.isPlain = true) (owned : type.owns value = true) :
    Cell.StandsFor type value (.ofPlain value) where
  written := by
    rw [toCell_plain plain owned, Except.map, stored_ofPlain plain owned]
  read := by
    rcases ColumnType.owns_cases plain owned with
      ⟨rfl, number, rfl, _⟩ | ⟨rfl, spelled, rfl⟩ | ⟨rfl, flag, rfl⟩
    · rfl
    · rfl
    · cases flag <;> rfl

/-- A double that is not whole has a cell that stands for it. -/
theorem Cell.StandsFor.ofReal {double : Binary64} (isNumber : double.isNaN = false)
    (notWhole : double.toInt? = none) : Cell.StandsFor .real (.float double) (.real double) where
  written := by
    have sent : Operand.toCell ⟨.ofType .real, .float double⟩ = .ok (.real double) := by
      change Except.ok (if double.isNaN then Cell.null else .real double) = _
      rw [isNumber]
      rfl
    have kept : (Affinity.ofType .real).stored (.real double) = .real double := by
      change (Cell.asWhole (.real double)).asReal = _
      rw [Cell.asWhole, notWhole]
      rfl
    rw [sent, Except.map, kept]
  read := rfl

/-- Values that are plainly of a column type have cells that stand for them. -/
theorem exists_standsFor (plain : type.keepsPlainly value = true) :
    ∃ cell, Cell.StandsFor type value cell := by
  have owned : type.isPlain = true ∧ type.owns value = true →
      ∃ cell, Cell.StandsFor type value cell :=
    fun owned => ⟨_, .ofPlain owned.1 owned.2⟩
  cases value with
  | null => exact ⟨_, .null⟩
  | float double =>
      rw [ColumnType.keepsPlainly, Bool.and_eq_true, Bool.and_eq_true, beq_iff_eq,
        Bool.not_eq_true', Option.isNone_iff_eq_none] at plain
      obtain ⟨⟨rfl, isNumber⟩, notWhole⟩ := plain
      exact ⟨_, .ofReal isNumber notWhole⟩
  | _ => exact owned ((Bool.and_eq_true _ _).mp plain)

theorem Cell.Form.isNull_eq (form : Cell.Form type cell value) : cell.isNull = value.isNull := by
  cases form <;> rfl

theorem stands_flag (stands : Cell.StandsFor .boolean value cell) : Cell.Form .boolean cell value := by
  obtain ⟨written, rfl⟩ := stands
  have flags : ∀ flag : Bool, cell.read .boolean = .bool flag →
      cell = .integer (if flag then 1 else 0) := by
    intro flag isFlag
    rw [isFlag] at written
    cases flag <;> cases written <;> rfl
  cases cell with
  | null => exact .null
  | integer number =>
      have isCell := flags (number != 0) rfl
      change Cell.Form .boolean (.integer number) (.bool (number != 0))
      generalize (number != 0) = flag at isCell ⊢
      rw [isCell]
      exact .flag rfl flag
  | real double => cases flags _ rfl
  | text spelled => cases flags _ rfl

theorem readMoment_cases (spelled : String) :
    Cell.readMoment spelled = .text spelled ∨
      ∃ moment, Cell.readMoment spelled = .moment moment := by
  unfold Cell.readMoment
  split
  · exact .inr ⟨_, rfl⟩
  · exact .inl rfl

/-- Moments that are read are in the calendar and in universal time. -/
theorem readMoment_isProper {spelled : String} {moment : Moment}
    (read : Cell.readMoment spelled = .moment moment) :
    moment.IsProper ∧ moment.offset = some 0 := by
  unfold Cell.readMoment at read
  split at read
  · rename_i found
    cases read
    have proper := Moment.ofIso?_isProper found
    exact ⟨⟨⟨proper.isDate.month, proper.isDate.day⟩, proper.hour, proper.minute, proper.second,
      proper.microsecond⟩, rfl⟩
  · cases read

/-- What a text spells is a whole number or a double. -/
theorem unsigned?_cases {negative : Bool} {characters : List Char} {cell : Cell}
    (read : Cell.unsigned? negative characters = some cell) :
    (∃ whole, cell = .integer whole) ∨ ∃ double, cell = .real double := by
  have real : ∀ (whole fraction rest : List Char), (if whole.isEmpty && fraction.isEmpty then none
      else do
        let exponent ← Cell.exponent? rest
        some (Cell.real (readReal negative whole fraction exponent))) = some cell →
      ∃ double, cell = .real double := by
    intro whole fraction rest read
    split at read
    · cases read
    · obtain ⟨exponent, _, read⟩ := Option.bind_eq_some_iff.mp read
      cases read
      exact ⟨_, rfl⟩
  unfold Cell.unsigned? at read
  dsimp only at read
  split at read
  · generalize (if negative = true then
      -(Text.numberOf (characters.takeWhile Char.isDigit) : Int)
      else Text.numberOf (characters.takeWhile Char.isDigit)) = whole at read
    split at read
    · cases read
      exact .inl ⟨_, rfl⟩
    · exact .inr (real _ _ _ read)
  · exact .inr (real _ _ _ read)
  · exact .inr (real _ _ _ read)

theorem ofNumeral?_cases {spelled : String} {cell : Cell}
    (read : Cell.ofNumeral? spelled = some cell) :
    (∃ whole, cell = .integer whole) ∨ ∃ double, cell = .real double := by
  unfold Cell.ofNumeral? at read
  dsimp only at read
  split at read <;> exact unsigned?_cases read

/-- A column that takes numbers leaves a text only as it stands. -/
theorem text_of_numeric {kept spelled : String}
    (stored : Affinity.numeric.stored (.text kept) = .text spelled) : kept = spelled := by
  rw [Affinity.stored, Cell.asNumber] at stored
  cases read : Cell.ofNumeral? kept with
  | none =>
      rw [read] at stored
      cases stored
      rfl
  | some number =>
      rw [read] at stored
      obtain ⟨whole, rfl⟩ | ⟨double, rfl⟩ := ofNumeral?_cases read
      · cases stored
      · rw [Option.getD_some, Cell.asWhole] at stored
        split at stored
        · split at stored <;> cases stored
        · cases stored

theorem toCell_moment (moment : Moment) :
    Operand.toCell ⟨.ofType .moment, .moment moment⟩ =
      match moment.storedText? with
      | some stored => .ok (.text stored)
      | none => .error (.plain .statement) := by
  have prepared : Operand.prepare ⟨.ofType .moment, .moment moment⟩ =
      match moment.storedText? with
      | some stored => .ok (.text stored)
      | none => .error (.plain .statement) := rfl
  rw [Operand.toCell, prepared]
  cases moment.storedText? <;> rfl

theorem stands_moment (stands : Cell.StandsFor .moment value cell) : Cell.Form .moment cell value := by
  obtain ⟨written, rfl⟩ := stands
  cases cell with
  | null => exact .null
  | integer number => cases written
  | real double => cases written
  | text spelled =>
      obtain isText | ⟨moment, isMoment⟩ := readMoment_cases spelled
      · have isText : Cell.read .moment (.text spelled) = .text spelled := isText
        rw [isText] at written
        cases written
      · have isMoment : Cell.read .moment (.text spelled) = .moment moment := isMoment
        rw [isMoment] at written ⊢
        refine .moment rfl isMoment ?_
        rw [toCell_moment] at written
        cases stored : moment.storedText? with
        | none =>
            rw [stored] at written
            cases written
        | some kept =>
            rw [stored] at written
            rw [text_of_numeric (Except.ok.inj written)]

/-- Cells that stand for values are of these forms. -/
theorem Cell.StandsFor.form (stands : Cell.StandsFor type value cell) : Cell.Form type cell value := by
  by_cases isFlag : type = .boolean
  · subst isFlag
    exact stands_flag stands
  · by_cases isMoment : type = .moment
    · subst isMoment
      exact stands_moment stands
    · obtain ⟨written, rfl⟩ := stands
      cases cell with
      | null => exact .null
      | integer number =>
          rw [Cell.read, if_neg isFlag]
          exact .integer isFlag isMoment number
      | real double =>
          rw [Cell.read, if_neg isFlag] at written ⊢
          refine .real isFlag isMoment (Bool.eq_false_iff.mpr fun isNaN => ?_)
          have sent : Cell.ofValue (.float double) = .ok .null := by
            rw [Cell.ofValue, if_pos isNaN]
          have toCell : Operand.toCell ⟨.ofType type, .float double⟩ = .ok .null := by
            cases type with
            | boolean => exact absurd rfl isFlag
            | moment => exact absurd rfl isMoment
            | _ => exact sent
          rw [toCell] at written
          cases type <;> cases written
      | text spelled =>
          have read : Cell.read type (.text spelled) = .text spelled :=
            (Cell.Form.text isFlag isMoment spelled).read_eq
          rw [read]
          exact .text isFlag isMoment spelled

theorem sameNumber_eq (left right : Value.Number) (leftNumber : left.isNaN = false)
    (rightNumber : right.isNaN = false) :
    ((left.order? right).getD .eq == .eq) = Value.sameNumber right left := by
  have swapped : compare left.rank right.rank = (compare right.rank left.rank).swap :=
    Std.OrientedCmp.eq_swap
  rw [Value.sameNumber, Value.Number.order?_eq leftNumber rightNumber,
    Value.Number.order?_eq rightNumber leftNumber, Option.getD_some, swapped]
  cases compare right.rank left.rank <;> rfl

theorem same_texts (left right : String) : (compare left right == .eq) = (right == left) := by
  rw [Bool.eq_iff_iff, beq_iff_eq, beq_iff_eq, Std.LawfulEqCmp.compare_eq_iff_eq, eq_comm]

/-- Cells of one column type are equal exactly when the values that are read of them are. -/
theorem Cell.Form.order_eq (isLeft : Cell.Form type left value) (isRight : Cell.Form type right other)
    (notNull : left.isNull = false) : (left.order right == .eq) = other.same value := by
  cases isLeft with
  | null => cases notNull
  | flag isFlag flag =>
      cases isRight with
      | null => rfl
      | flag _ other => cases flag <;> cases other <;> rfl
      | moment isMoment => rw [isFlag] at isMoment; cases isMoment
      | integer notFlag | real notFlag | text notFlag => exact absurd isFlag notFlag
  | @moment isMoment spelled moment read stored =>
      cases isRight with
      | null => rfl
      | flag isFlag => rw [isFlag] at isMoment; cases isMoment
      | @moment _ spelledOther momentOther readOther storedOther =>
          change (compare spelled spelledOther == .eq) = (momentOther.order? moment == some .eq)
          rw [Bool.eq_iff_iff, beq_iff_eq, beq_iff_eq, Std.LawfulEqCmp.compare_eq_iff_eq]
          constructor
          · rintro rfl
            rw [read] at readOther
            cases readOther
            exact Moment.order?_eq_some_eq.mpr ⟨rfl, rfl⟩
          · intro same
            obtain ⟨proper, universal⟩ := readMoment_isProper read
            obtain ⟨properOther, universalOther⟩ := readMoment_isProper readOther
            obtain rfl := Moment.eq_of_order? properOther proper universalOther universal same
            exact Option.some.inj (stored.symm.trans storedOther)
      | integer _ notMoment | real _ notMoment | text _ notMoment => exact absurd isMoment notMoment
  | integer notFlag notMoment number =>
      cases isRight with
      | null => rfl
      | flag isFlag => exact absurd isFlag notFlag
      | moment isMoment => exact absurd isMoment notMoment
      | integer _ _ other => exact sameNumber_eq (.whole number) (.whole other) rfl rfl
      | real _ _ isNumber => exact sameNumber_eq (.whole number) (.double _) rfl isNumber
      | text _ _ spelled => rfl
  | real notFlag notMoment isNumber =>
      cases isRight with
      | null => rfl
      | flag isFlag => exact absurd isFlag notFlag
      | moment isMoment => exact absurd isMoment notMoment
      | integer _ _ other => exact sameNumber_eq (.double _) (.whole other) isNumber rfl
      | real _ _ isOther => exact sameNumber_eq (.double _) (.double _) isNumber isOther
      | text _ _ spelled => rfl
  | text notFlag notMoment spelled =>
      cases isRight with
      | null => rfl
      | flag isFlag => exact absurd isFlag notFlag
      | moment isMoment => exact absurd isMoment notMoment
      | integer | real => rfl
      | text _ _ other => exact same_texts spelled other

end

end Sql

end ResourceServer
