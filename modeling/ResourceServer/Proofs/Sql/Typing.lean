import ResourceServer.Filter.Evaluation
import ResourceServer.Proofs.Sql.Outcome
import ResourceServer.Proofs.Value.Order

/-!
# Values of their column's type

A column of whole numbers, texts or flags keeps a value of its own type as one cell, and an
operand of that type is sent as the same kind of cell.  Two such cells stand in the order in
which the values stand, so a comparison on cells is the comparison of the values, and a test of
an empty cell is undecided where the comparison with null fails.
-/

namespace ResourceServer

/-- Whether a value is one of a column type: whole numbers have 64 bits, texts no null character. -/
def ColumnType.owns : ColumnType → Value → Bool
  | .integer, .int value => Sql.fitsWord value
  | .text, .text value => value.toList.all fun character => character.toNat != 0
  | .boolean, .bool _ => true
  | .real, .float _ => true
  | .moment, .moment _ => true
  | _, _ => false

/-- Whether a column type is one of whole numbers, texts or flags. -/
def ColumnType.isPlain : ColumnType → Bool
  | .integer => true
  | .text => true
  | .boolean => true
  | _ => false

namespace ColumnType

theorem owns_integer {value : Value} :
    integer.owns value = true ↔ ∃ number, value = .int number ∧ Sql.fitsWord number = true := by
  cases value <;> simp [owns]

theorem owns_text {value : Value} :
    text.owns value = true ↔
      ∃ spelled, value = .text spelled ∧ ∀ character ∈ spelled.toList, character.toNat ≠ 0 := by
  cases value <;> simp [owns]

theorem owns_boolean {value : Value} : boolean.owns value = true ↔ ∃ flag, value = .bool flag := by
  cases value <;> simp [owns]

/-- A value of a plain column is a whole number, a text or a flag. -/
theorem owns_cases {type : ColumnType} (plain : type.isPlain = true) {value : Value}
    (owned : type.owns value = true) :
    (type = .integer ∧ ∃ number, value = .int number ∧ Sql.fitsWord number = true) ∨
      (type = .text ∧ ∃ spelled, value = .text spelled) ∨
      (type = .boolean ∧ ∃ flag, value = .bool flag) := by
  cases type with
  | integer => exact .inl ⟨rfl, owns_integer.mp owned⟩
  | text =>
      obtain ⟨spelled, isText, _⟩ := owns_text.mp owned
      exact .inr (.inl ⟨rfl, spelled, isText⟩)
  | boolean => exact .inr (.inr ⟨rfl, owns_boolean.mp owned⟩)
  | real | moment | untyped => cases plain

end ColumnType

/-- Whether a comparison asks for values of a column type, in a way that the type knows. -/
def Filter.Leaf.suits (leaf : Leaf) (type : ColumnType) : Bool :=
  match leaf.operator with
  | .isNull | .isNotNull => leaf.operand.isNull
  | .eq | .ne => type.isPlain && type.owns leaf.operand
  | .gt | .gte | .lt | .lte => type.isPlain && type != .boolean && type.owns leaf.operand
  | .isIn | .notIn =>
      match leaf.operand with
      | .list items => type.isPlain && items.all type.owns
      | _ => false
  | .like | .unknown _ => false

namespace Sql

/-- A cell of a column keeps a value: the value is null or of the column's type, writing it yields
the cell, and reading the cell yields it. -/
structure Keeps (column : Column) (value : Value) (cell : Cell) : Prop where
  typed : value = .null ∨ column.type.owns value = true
  written : (Operand.written column value).toCell.map (columnAffinity column).stored = .ok cell
  read : cell.read column.type = value

/-- The cell that keeps a whole number, a text or a flag. -/
def Cell.ofPlain : Value → Cell
  | .bool value => .integer (if value then 1 else 0)
  | .int value => .integer value
  | .text value => .text value
  | _ => .null

/-! ## Cells of plain columns -/

theorem Cell.read_eq_null {type : ColumnType} {cell : Cell} :
    cell.read type = .null ↔ cell = .null := by
  cases cell with
  | null => simp [read]
  | integer value => by_cases flag : type = .boolean <;> simp [read, flag]
  | real value => by_cases flag : type = .boolean <;> simp [read, flag]
  | text value =>
      cases type <;> simp only [read, reduceCtorEq, iff_false]
      unfold readMoment
      split <;> simp

theorem Keeps.isNull {column : Column} {value : Value} {cell : Cell}
    (keeps : Keeps column value cell) : cell.isNull = value.isNull := by
  have empty : value = .null ↔ cell = .null := by
    rw [← Cell.read_eq_null, keeps.read]
  cases cell with
  | null => rw [empty.mpr rfl]; rfl
  | _ =>
      have some : value ≠ .null := by simp [empty]
      cases value <;> first | rfl | exact absurd rfl some

theorem toCell_plain {type : ColumnType} (plain : type.isPlain = true) {value : Value}
    (owned : type.owns value = true) :
    Operand.toCell ⟨.ofType type, value⟩ = .ok (Cell.ofPlain value) := by
  rcases ColumnType.owns_cases plain owned with
    ⟨rfl, number, rfl, fits⟩ | ⟨rfl, spelled, rfl⟩ | ⟨rfl, flag, rfl⟩
  · simp [Operand.toCell, Preparation.ofType, Operand.prepare, bind, Except.bind, Cell.ofValue,
      Cell.ofPlain, fits]
  · rfl
  · cases flag <;> rfl

theorem Preparation.ofComparison_plain {type : ColumnType} (plain : type.isPlain = true)
    {value : Value} (owned : type.owns value = true) :
    ofComparison type value = ofType type := by
  rcases ColumnType.owns_cases plain owned with
    ⟨rfl, number, rfl, _⟩ | ⟨rfl, spelled, rfl⟩ | ⟨rfl, flag, rfl⟩ <;> rfl

/-- A plain column leaves the cell of a value of its type as it is. -/
theorem stored_ofPlain {type : ColumnType} (plain : type.isPlain = true) {value : Value}
    (owned : type.owns value = true) :
    (Affinity.ofType type).stored (Cell.ofPlain value) = Cell.ofPlain value := by
  rcases ColumnType.owns_cases plain owned with
    ⟨rfl, number, rfl, _⟩ | ⟨rfl, spelled, rfl⟩ | ⟨rfl, flag, rfl⟩ <;> rfl

theorem Keeps.eq_ofPlain {column : Column} {value : Value} {cell : Cell}
    (keeps : Keeps column value cell) (plain : column.type.isPlain = true) :
    cell = Cell.ofPlain value := by
  cases keeps.typed with
  | inl null =>
      have read := keeps.read
      rw [null, Cell.read_eq_null] at read
      rw [null, read]
      rfl
  | inr owned =>
      have written := keeps.written
      rw [Operand.written, toCell_plain plain owned] at written
      have stored := stored_ofPlain plain owned
      simpa [Except.map, columnAffinity, stored] using written.symm

/-! ## Comparisons -/

/-- Cells of one plain type stand in the order of the values that they keep. -/
theorem orderUnder_plain {column : Column} (plain : column.type.isPlain = true)
    {value operand : Value} (ownsValue : column.type.owns value = true)
    (ownsOperand : column.type.owns operand = true) :
    ∃ ordering, Cell.orderUnder? (columnAffinity column) (.ofPlain value) (.ofPlain operand) =
        some ordering ∧
      value.compareWith operand = .ordered ordering ∧
      value.same operand = (ordering == .eq) ∧ Value.isSameNaN value operand = false := by
  unfold columnAffinity
  rcases ColumnType.owns_cases plain ownsValue with
    ⟨type, value, rfl, _⟩ | ⟨type, value, rfl⟩ | ⟨type, value, rfl⟩ <;> rw [type] at ownsOperand ⊢
  · obtain ⟨operand, rfl, _⟩ := ColumnType.owns_integer.mp ownsOperand
    exact ⟨compare value operand, rfl, rfl, rfl, rfl⟩
  · obtain ⟨operand, rfl, _⟩ := ColumnType.owns_text.mp ownsOperand
    refine ⟨compare value operand, rfl, rfl, ?_, rfl⟩
    rw [Bool.eq_iff_iff]
    simp [Value.same]
  · obtain ⟨operand, rfl⟩ := ColumnType.owns_boolean.mp ownsOperand
    exact ⟨compare (if value then (1 : Int) else 0) (if operand then 1 else 0), rfl, rfl, rfl, rfl⟩

section Comparison

variable {column : Column} {row : Row} {value : Value}

theorem compareCell_null (keeps : Keeps column .null (row.cell column.name))
    (comparator : Comparator) (cell : Cell) : compareCell column comparator row cell = .unknown := by
  have empty : (row.cell column.name).isNull = true := keeps.isNull
  simp [compareCell, Cell.orderUnder?, empty, Truth.ofOption]

/-- A comparison of a kept value with an operand of its type is decided by the order of the two. -/
theorem compareCell_plain (plain : column.type.isPlain = true)
    (keeps : Keeps column value (row.cell column.name)) (some : value.isNull = false)
    {operand : Value} (ownsOperand : column.type.owns operand = true) :
    ∃ ordering,
      (∀ comparator, compareCell column comparator row (.ofPlain operand) =
        .ofBool (comparator.accepts ordering)) ∧
      value.compareWith operand = .ordered ordering ∧
      value.same operand = (ordering == .eq) ∧ Value.isSameNaN value operand = false := by
  have owned : column.type.owns value = true := by
    cases keeps.typed with
    | inl null =>
        rw [null] at some
        cases some
    | inr owned => exact owned
  obtain ⟨ordering, under, compares, same, notNaN⟩ := orderUnder_plain plain owned ownsOperand
  refine ⟨ordering, fun comparator => ?_, compares, same, notNaN⟩
  rw [compareCell, keeps.eq_ofPlain plain, under]
  rfl

theorem compared_plain (plain : column.type.isPlain = true) {operand : Value}
    (ownsOperand : column.type.owns operand = true) :
    (Operand.compared column operand).toCell = .ok (.ofPlain operand) := by
  rw [Operand.compared, Preparation.ofComparison_plain plain ownsOperand]
  exact toCell_plain plain ownsOperand

/-! ## Leaves -/

theorem decides_equality (plain : column.type.isPlain = true)
    (keeps : Keeps column value (row.cell column.name)) {operand : Value}
    (ownsOperand : column.type.owns operand = true) (equal : Bool) :
    Condition.Decides row (.test (equalityTest column equal operand))
      (!value.isNull && value.same operand == equal) := by
  -- A flag is written into the statement, every other operand is sent.
  have sent : ∃ cells, (equalityTest column equal operand).mapParameters Operand.toCell = .ok cells ∧
      Condition.hasLongPattern cells = false ∧
      cells.outcome row =
        compareCell column (if equal then .eq else .ne) row (.ofPlain operand) := by
    have toCell := compared_plain plain ownsOperand
    rcases ColumnType.owns_cases plain ownsOperand with
      ⟨_, operand, rfl, _⟩ | ⟨_, operand, rfl⟩ | ⟨_, operand, rfl⟩
    · exact ⟨.compare column (if equal then .eq else .ne) (.ofPlain (.int operand)),
        map_eq_ok.mpr ⟨_, toCell, rfl⟩, rfl, rfl⟩
    · exact ⟨.compare column (if equal then .eq else .ne) (.ofPlain (.text operand)),
        map_eq_ok.mpr ⟨_, toCell, rfl⟩, rfl, rfl⟩
    · exact ⟨.flag column equal operand, rfl, rfl, rfl⟩
  obtain ⟨cells, sent, short, outcome⟩ := sent
  apply Condition.decides_test sent short
  rw [outcome]
  cases null : value.isNull with
  | true =>
      rw [Value.isNull_iff.mp null] at keeps
      simp [compareCell_null keeps]
  | false =>
      obtain ⟨ordering, compares, _, same, _⟩ := compareCell_plain plain keeps null ownsOperand
      rw [compares, Truth.ofBool_eq_yes, same]
      cases equal <;> cases ordering <;> decide

theorem decides_ordering (plain : column.type.isPlain = true)
    (keeps : Keeps column value (row.cell column.name)) {operand : Value}
    (ownsOperand : column.type.owns operand = true) {comparator : Comparator}
    {operator : Filter.Operator}
    (alike : ∀ ordering, comparator.accepts ordering = operator.acceptsOrder (.ordered ordering)) :
    Condition.Decides row (.test (.compare column comparator (.compared column operand)))
      (!value.isNull && operator.acceptsOrder (value.compareWith operand)) := by
  have sent : Test.mapParameters Operand.toCell
      (.compare column comparator (.compared column operand)) =
        .ok (.compare column comparator (.ofPlain operand)) :=
    map_eq_ok.mpr ⟨_, compared_plain plain ownsOperand, rfl⟩
  apply Condition.decides_test sent rfl
  rw [Test.outcome]
  cases null : value.isNull with
  | true =>
      rw [Value.isNull_iff.mp null] at keeps
      simp [compareCell_null keeps]
  | false =>
      obtain ⟨ordering, compares, order, _, _⟩ := compareCell_plain plain keeps null ownsOperand
      rw [compares, Truth.ofBool_eq_yes, order, alike]
      simp

theorem decides_empty (keeps : Keeps column value (row.cell column.name)) (isEmpty : Bool) :
    Condition.Decides row (.test (.empty column isEmpty)) (value.isNull == isEmpty) := by
  apply Condition.decides_test rfl rfl
  rw [Test.outcome, Truth.ofBool_eq_yes, keeps.isNull]

/-- The outcome of a search for a cell among others. -/
theorem among_null (keeps : Keeps column .null (row.cell column.name)) (cells : List (Option Cell))
    (some : cells ≠ []) :
    cells.foldr (fun cell outcome =>
      (compareCell column .eq row (cell.getD .null)).either outcome) .no = .unknown := by
  induction cells with
  | nil => exact absurd rfl some
  | cons cell cells induction =>
      rw [List.foldr_cons, compareCell_null keeps]
      cases cells with
      | nil => rfl
      | cons next cells =>
          rw [induction (by simp)]
          rfl

theorem among_plain (plain : column.type.isPlain = true)
    (keeps : Keeps column value (row.cell column.name)) (some : value.isNull = false)
    {items : List Value} (ownsItems : ∀ item ∈ items, column.type.owns item = true) :
    (items.map fun item => Option.some (Cell.ofPlain item)).foldr (fun cell outcome =>
      (compareCell column .eq row (cell.getD .null)).either outcome) .no =
        .ofBool (value.isIn items) := by
  induction items with
  | nil => rfl
  | cons item items induction =>
      rw [List.forall_mem_cons] at ownsItems
      obtain ⟨ordering, compares, _, same, notNaN⟩ :=
        compareCell_plain plain keeps some ownsItems.1
      have others := induction ownsItems.2
      have found : value.isIn (item :: items) = (ordering == .eq || value.isIn items) := by
        rw [Value.isIn, List.any_cons, Value.coincides, notNaN, same, Bool.false_or]
        rfl
      rw [List.map_cons, List.foldr_cons, others, Option.getD_some, compares, found]
      cases ordering <;> cases value.isIn items <;> rfl

theorem mapM_map_eq_ok {α β γ ε : Type} {step : β → Except ε γ} {items : List α} {given : α → β}
    {result : α → γ} (each : ∀ item ∈ items, step (given item) = .ok (result item)) :
    (items.map given).mapM step = .ok (items.map result) := by
  induction items with
  | nil => rfl
  | cons item items induction =>
      rw [List.forall_mem_cons] at each
      rw [List.map_cons, List.mapM_cons, each.1, induction each.2]
      rfl

/-- A membership test prepares all items by the kind of the first; in items of one type that is the
kind of each. -/
theorem sent_members (plain : column.type.isPlain = true) (isIn : Bool) {items : List Value}
    (ownsItems : ∀ item ∈ items, column.type.owns item = true) :
    ∃ test, membershipTest column isIn items = .ok test ∧
      test.mapParameters Operand.toCell =
        .ok (.among column isIn (items.map fun item => some (Cell.ofPlain item))) := by
  have noNull : items.any Value.isNull = false := by
    rw [List.any_eq_false]
    intro item member null
    have owned := ownsItems item member
    rw [Value.isNull_iff.mp null] at owned
    cases type : column.type <;> rw [type] at owned <;> cases owned
  refine ⟨.among column isIn (items.map fun item =>
    some ⟨Preparation.ofComparison column.type (items.headD .null), item⟩), ?_, ?_⟩
  · rw [membershipTest, noNull]
    rfl
  apply map_eq_ok.mpr
  refine ⟨items.map fun item => some (Cell.ofPlain item), mapM_map_eq_ok ?_, rfl⟩
  intro item member
  have sameKind : Preparation.ofComparison column.type (items.headD .null) =
      .ofType column.type := by
    obtain ⟨first, rest, rfl⟩ := List.exists_cons_of_ne_nil (List.ne_nil_of_mem member)
    exact Preparation.ofComparison_plain plain (ownsItems first List.mem_cons_self)
  rw [sameKind]
  exact map_eq_ok.mpr ⟨_, toCell_plain plain (ownsItems item member), rfl⟩

theorem decides_membership (plain : column.type.isPlain = true)
    (keeps : Keeps column value (row.cell column.name)) (isIn : Bool) {items : List Value}
    (ownsItems : ∀ item ∈ items, column.type.owns item = true) :
    ∃ test, membershipTest column isIn items = .ok test ∧
      Condition.Decides row (.test test)
        (if items.isEmpty then !isIn else !value.isNull && value.isIn items == isIn) := by
  obtain ⟨test, built, sent⟩ := sent_members plain isIn ownsItems
  refine ⟨test, built, Condition.decides_test sent rfl ?_⟩
  rw [Test.outcome]
  cases null : value.isNull with
  | true =>
      rw [Value.isNull_iff.mp null] at keeps
      cases items with
      | nil => cases isIn <;> simp [Truth.negate]
      | cons item items =>
          have undecided := among_null keeps
            ((item :: items).map fun item => some (Cell.ofPlain item)) (by simp)
          simp only [undecided]
          cases isIn <;> simp [Truth.negate]
  | false =>
      have found := among_plain plain keeps null ownsItems
      simp only [found]
      cases items with
      | nil => cases isIn <;> simp [Value.isIn, Truth.negate, Truth.ofBool]
      | cons item items =>
          cases isIn <;> cases value.isIn (item :: items) <;> simp [Truth.negate, Truth.ofBool]

end Comparison

theorem plainOperand_eq {column : Column} (plain : column.type.isPlain = true)
    (notFlag : column.type ≠ .boolean) {operand : Value}
    (owned : column.type.owns operand = true) :
    plainOperand column operand = .ok (.compared column operand) := by
  rcases ColumnType.owns_cases plain owned with
    ⟨_, number, rfl, _⟩ | ⟨_, spelled, rfl⟩ | ⟨type, flag, rfl⟩
  · rfl
  · rfl
  · exact absurd type notFlag

section Leaf

variable {model : Model} {leaf : Filter.Leaf} {column : Column} {record : Record} {row : Row}

/-- A leaf holds for a record exactly when its test selects the row of the record. -/
def LeafAgrees (model : Model) (leaf : Filter.Leaf) (record : Record) (row : Row) : Prop :=
  ∃ test holds, Test.ofLeaf model leaf = .ok test ∧ leaf.evaluate record = .ok holds ∧
    Condition.Decides row (.test test) holds

theorem unlessNull {field : Value} {holds : Bool} :
    (if field.isNull then .ok false else .ok holds : Except Error Bool) =
      .ok (!field.isNull && holds) := by
  cases field.isNull <;> rfl

theorem agrees_equality (keeps : Keeps column (record.get leaf.field) (row.cell column.name))
    (suits : (column.type.isPlain && column.type.owns leaf.operand) = true) (equal : Bool)
    (built : Test.ofLeaf model leaf = .ok (equalityTest column equal leaf.operand))
    (evaluated : leaf.evaluate record =
      if (record.get leaf.field).isNull then .ok false
      else .ok ((record.get leaf.field).same leaf.operand == equal)) :
    LeafAgrees model leaf record row := by
  rw [Bool.and_eq_true] at suits
  rw [unlessNull] at evaluated
  exact ⟨_, _, built, evaluated, decides_equality suits.1 keeps suits.2 equal⟩

theorem agrees_ordering (keeps : Keeps column (record.get leaf.field) (row.cell column.name))
    (suits : (column.type.isPlain && column.type != .boolean && column.type.owns leaf.operand) = true)
    (comparator : Comparator) (operator : Filter.Operator)
    (alike : ∀ ordering, comparator.accepts ordering = operator.acceptsOrder (.ordered ordering))
    (built : Test.ofLeaf model leaf =
      (plainOperand column leaf.operand).map (.compare column comparator))
    (evaluated : leaf.evaluate record =
      if (record.get leaf.field).isNull then .ok false
      else .ok (operator.acceptsOrder ((record.get leaf.field).compareWith leaf.operand))) :
    LeafAgrees model leaf record row := by
  simp only [Bool.and_eq_true, bne_iff_ne] at suits
  obtain ⟨⟨plain, notFlag⟩, owned⟩ := suits
  rw [plainOperand_eq plain notFlag owned] at built
  rw [unlessNull] at evaluated
  exact ⟨_, _, built, evaluated, decides_ordering plain keeps owned alike⟩

theorem agrees_membership (keeps : Keeps column (record.get leaf.field) (row.cell column.name))
    (plain : column.type.isPlain = true) {items : List Value}
    (owned : items.all column.type.owns = true) (isIn : Bool)
    (built : Test.ofLeaf model leaf = membershipTest column isIn items)
    (evaluated : leaf.evaluate record =
      if items.isEmpty then .ok !isIn
      else if (record.get leaf.field).isNull then .ok false
      else .ok ((record.get leaf.field).isIn items == isIn)) :
    LeafAgrees model leaf record row := by
  rw [List.all_eq_true] at owned
  obtain ⟨test, isTest, decides⟩ := decides_membership plain keeps isIn owned
  rw [isTest] at built
  refine ⟨test, _, built, ?_, decides⟩
  rw [evaluated, unlessNull]
  cases items <;> rfl

theorem suits_membership {type : ColumnType} (suits : leaf.suits type = true)
    (membership : leaf.operator.takesList = true) :
    ∃ items, leaf.operand = .list items ∧ type.isPlain = true ∧ items.all type.owns = true := by
  unfold Filter.Leaf.suits at suits
  cases operator : leaf.operator <;> rw [operator] at suits membership <;> cases membership <;>
    cases operand : leaf.operand <;> rw [operand] at suits <;>
    simp only [Bool.and_eq_true, Bool.false_eq_true] at suits <;>
    exact ⟨_, rfl, suits.1, suits.2⟩

/-- A leaf that suits its column becomes a test that selects the rows on which the leaf holds. -/
theorem agrees_leaf (found : model.column? leaf.field = some column)
    (suits : leaf.suits column.type = true)
    (keeps : Keeps column (record.get leaf.field) (row.cell column.name)) :
    LeafAgrees model leaf record row := by
  have named : filterColumn model leaf.field = .ok column := by rw [filterColumn, found]
  cases operator : leaf.operator with
  | eq =>
      rw [Filter.Leaf.suits, operator] at suits
      apply agrees_equality keeps suits true
      · rw [Test.ofLeaf, named, operator]
        rfl
      · rw [Filter.Leaf.evaluate, operator]
        simp
  | ne =>
      rw [Filter.Leaf.suits, operator] at suits
      apply agrees_equality keeps suits false
      · rw [Test.ofLeaf, named, operator]
        rfl
      · rw [Filter.Leaf.evaluate, operator]
        simp
  | gt =>
      rw [Filter.Leaf.suits, operator] at suits
      apply agrees_ordering keeps suits .gt .gt
      · intro ordering
        cases ordering <;> rfl
      · rw [Test.ofLeaf, named, operator]
        rfl
      · rw [Filter.Leaf.evaluate, operator]
  | gte =>
      rw [Filter.Leaf.suits, operator] at suits
      apply agrees_ordering keeps suits .ge .gte
      · intro ordering
        cases ordering <;> rfl
      · rw [Test.ofLeaf, named, operator]
        rfl
      · rw [Filter.Leaf.evaluate, operator]
  | lt =>
      rw [Filter.Leaf.suits, operator] at suits
      apply agrees_ordering keeps suits .lt .lt
      · intro ordering
        cases ordering <;> rfl
      · rw [Test.ofLeaf, named, operator]
        rfl
      · rw [Filter.Leaf.evaluate, operator]
  | lte =>
      rw [Filter.Leaf.suits, operator] at suits
      apply agrees_ordering keeps suits .le .lte
      · intro ordering
        cases ordering <;> rfl
      · rw [Test.ofLeaf, named, operator]
        rfl
      · rw [Filter.Leaf.evaluate, operator]
  | like =>
      rw [Filter.Leaf.suits, operator] at suits
      cases suits
  | isIn =>
      obtain ⟨items, isList, plain, owned⟩ := suits_membership suits (by rw [operator]; rfl)
      apply agrees_membership keeps plain owned true
      · rw [Test.ofLeaf, named, operator, isList]
        rfl
      · rw [Filter.Leaf.evaluate, operator]
        rw [Filter.Leaf.evaluateMembership, operator, isList]
        cases items <;> simp
  | notIn =>
      obtain ⟨items, isList, plain, owned⟩ := suits_membership suits (by rw [operator]; rfl)
      apply agrees_membership keeps plain owned false
      · rw [Test.ofLeaf, named, operator, isList]
        rfl
      · rw [Filter.Leaf.evaluate, operator]
        rw [Filter.Leaf.evaluateMembership, operator, isList]
        cases items <;> simp
  | isNull =>
      refine ⟨.empty column true, (record.get leaf.field).isNull, ?_, ?_, ?_⟩
      · rw [Test.ofLeaf, named, operator]
        rfl
      · rw [Filter.Leaf.evaluate, operator]
      · simpa using decides_empty keeps true
  | isNotNull =>
      refine ⟨.empty column false, !(record.get leaf.field).isNull, ?_, ?_, ?_⟩
      · rw [Test.ofLeaf, named, operator]
        rfl
      · rw [Filter.Leaf.evaluate, operator]
      · simpa using decides_empty keeps false
  | unknown word =>
      rw [Filter.Leaf.suits, operator] at suits
      cases suits

end Leaf

end Sql

end ResourceServer
