import ResourceServer.Proofs.Filter.Runs
import ResourceServer.Proofs.Sql.Pattern
import ResourceServer.Samples.Blog

/-!
# Filters select the same rows in both stores

A filter tree whose leaves suit their columns is compiled to a condition with the meaning that
evaluating the tree has.  The induction follows the tree; in a group the lazy walk over the runs
has the outcome of asking whether all members of some run hold.  The condition of a search for an
ASCII text selects the rows that the search accepts.
-/

namespace ResourceServer

mutual

/-- Whether every leaf of a filter suits the column that it names. -/
def Filter.Node.suits (model : Model) : Filter.Node → Bool
  | .leaf comparison =>
      (model.column? comparison.field).any fun column => comparison.suits column.type
  | .group _ children => nodesSuit model children

/-- Whether every leaf of several filters suits the column that it names. -/
def nodesSuit (model : Model) : List Filter.Node → Bool
  | [] => true
  | node :: rest => node.suits model && nodesSuit model rest

end

theorem Model.name_of_column? {model : Model} {name : String} {column : Column}
    (found : model.column? name = some column) : column.name = name := by
  have named := List.find?_some found
  rwa [beq_iff_eq] at named

namespace Sql

/-- A row keeps a record: each column of the model keeps what the record has under its name. -/
def RowKeeps (model : Model) (record : Record) (row : Row) : Prop :=
  ∀ column, model.column? column.name = some column →
    Keeps column (record.get column.name) (row.cell column.name)

theorem RowKeeps.of_column? {model : Model} {record : Record} {row : Row} {name : String}
    {column : Column} (keeps : RowKeeps model record row)
    (found : model.column? name = some column) :
    Keeps column (record.get name) (row.cell column.name) := by
  have named := Model.name_of_column? found
  subst named
  exact keeps column found

/-! ## Filters -/

section Filters

variable {model : Model} {record : Record} {row : Row}

theorem decides_ofMembers {members : List (Bool × Condition Operand)} {pairs : List (Bool × Bool)}
    (each : List.Forall₂ (fun member pair =>
      member.1 = pair.1 ∧ Condition.Decides row member.2 pair.2) members pairs)
    (some : pairs ≠ []) :
    Condition.Decides row (Condition.ofMembers members) (Filter.someRunHolds pairs) := by
  have runs := forall₂_runsBy (fun member pair alike => alike.1) each
  have clauses : List.Forall₂ (Condition.Decides row)
      ((Filter.runsBy Prod.fst members).map fun run => Condition.conjunction (run.map Prod.snd))
      ((Filter.runsBy Prod.fst pairs).map fun run => (run.map Prod.snd).all id) := by
    rw [List.forall₂_map_left_iff, List.forall₂_map_right_iff]
    refine runs.imp fun run pairs alike => Condition.decides_conjunction ?_
    rw [List.forall₂_map_left_iff, List.forall₂_map_right_iff]
    exact alike.imp fun member pair alike => alike.2
  have holds : ((Filter.runsBy Prod.fst pairs).map fun run => (run.map Prod.snd).all id).any id =
      Filter.someRunHolds pairs := by
    simp [Filter.someRunHolds, List.any_map, List.all_map]
  unfold Condition.ofMembers
  split
  · -- Without runs there would be no members.
    rename_i none
    obtain ⟨pair, rest, rfl⟩ := List.exists_cons_of_ne_nil some
    obtain ⟨run, others, split⟩ := Filter.runsBy_cons Prod.fst rest
    rw [none, split] at clauses
    cases clauses
  · rw [← holds]
    exact Condition.decides_disjunction clauses

mutual

/-- A filter that suits the model becomes a condition with the meaning of the filter. -/
theorem decides_node (keeps : RowKeeps model record row) (node : Filter.Node)
    (suits : node.suits model = true) :
    ∃ condition holds, Condition.ofNode model node = .ok condition ∧
      node.evaluate record = .ok holds ∧ Condition.Decides row condition holds := by
  cases node with
  | leaf comparison =>
      rw [Filter.Node.suits, Option.any_eq_true] at suits
      obtain ⟨column, found, suits⟩ := suits
      obtain ⟨test, holds, built, evaluated, decides⟩ :=
        agrees_leaf found suits (keeps.of_column? found)
      refine ⟨.test test, holds, ?_, ?_, decides⟩
      · rw [Condition.ofNode, built]
        rfl
      · rw [Filter.Node.evaluate, evaluated]
  | group combinator children =>
      rw [Filter.Node.suits] at suits
      obtain ⟨members, pairs, built, evaluated, decide⟩ := decides_nodes keeps children suits
      cases evaluated with
      | nil =>
          cases decide
          refine ⟨Condition.ofMembers [], true, ?_, ?_, Condition.decides_all List.Forall₂.nil⟩
          · rw [Condition.ofNode, built]
            rfl
          · rw [Filter.Node.evaluate]
      | @cons first pair rest pairs evaluated others =>
          refine ⟨Condition.ofMembers members, Filter.someRunHolds (pair :: pairs), ?_, ?_,
            decides_ofMembers decide (List.cons_ne_nil pair pairs)⟩
          · rw [Condition.ofNode, built]
            rfl
          · have walk := Filter.evaluateRest_eq others pair.1 pair.2
            rw [Filter.Node.evaluate, evaluated.2]
            exact walk

/-- The members of a group, with the conditions and with the outcomes. -/
theorem decides_nodes (keeps : RowKeeps model record row) (nodes : List Filter.Node)
    (suits : nodesSuit model nodes = true) :
    ∃ (members : List (Bool × Condition Operand)) (pairs : List (Bool × Bool)),
      Condition.ofNodes model nodes = .ok members ∧
      List.Forall₂ (fun node pair =>
        node.opensRun = pair.1 ∧ node.evaluate record = .ok pair.2) nodes pairs ∧
      List.Forall₂ (fun member pair =>
        member.1 = pair.1 ∧ Condition.Decides row member.2 pair.2) members pairs := by
  cases nodes with
  | nil => exact ⟨[], [], rfl, List.Forall₂.nil, List.Forall₂.nil⟩
  | cons node rest =>
      rw [nodesSuit, Bool.and_eq_true] at suits
      obtain ⟨condition, holds, built, evaluated, decides⟩ := decides_node keeps node suits.1
      obtain ⟨members, pairs, builtRest, evaluatedRest, decideRest⟩ :=
        decides_nodes keeps rest suits.2
      refine ⟨(node.opensRun, condition) :: members, (node.opensRun, holds) :: pairs, ?_,
        List.Forall₂.cons ⟨rfl, evaluated⟩ evaluatedRest,
        List.Forall₂.cons ⟨rfl, decides⟩ decideRest⟩
      rw [Condition.ofNodes, built, builtRest]
      rfl

end

end Filters

/-! ## Searches -/

/-- Whether a value is null or an ASCII text. -/
def isSearchable : Value → Bool
  | .null => true
  | .text text => isAscii text
  | _ => false

/-- A search that goes by patterns of ASCII characters in columns of texts. -/
structure SearchSuits (model : Model) (term : SearchTerm) : Prop where
  ignoresCase : term.caseSensitive = false
  ascii : isAscii term.value = true
  short : term.value.length ≤ 49000
  inTexts : ∀ field ∈ term.fields, ∃ column, model.column? field = some column ∧ column.type = .text

section Searches

variable {model : Model} {record : Record} {row : Row} {term : SearchTerm}

theorem pattern_short (suits : SearchSuits model term) (column : Column) :
    Condition.hasLongPattern (.likeLowered column (.text term.pattern)) = false := by
  have ascii : isAscii term.pattern = true := isAscii_anywhere suits.ascii
  have short := suits.short
  have length : term.pattern.utf8ByteSize = 1 + term.value.length + 1 := by
    rw [utf8ByteSize_of_isAscii ascii, SearchTerm.pattern, String.length_append,
      String.length_append]
    rfl
  simp only [Condition.hasLongPattern, Cell.text?, length, decide_eq_false_iff_not, patternLimit]
  omega

theorem decides_field (suits : SearchSuits model term) {field : String} {column : Column}
    (found : model.column? field = some column) (isText : column.type = .text)
    (keeps : RowKeeps model record row) (searchable : isSearchable (record.get field) = true) :
    Condition.Decides row (.test (.likeLowered column (Operand.compared column (.text term.pattern))))
      (Filter.likeMatches (record.get field) term.pattern term.caseSensitive) := by
  have keeps := keeps.of_column? found
  have cell := keeps.eq_ofPlain (by rw [isText]; rfl)
  have sent : Test.mapParameters Operand.toCell
      (.likeLowered column (Operand.compared column (.text term.pattern))) =
        .ok (.likeLowered column (.text term.pattern)) := by
    rw [Operand.compared, isText]
    rfl
  apply Condition.decides_test sent (pattern_short suits column)
  rw [Test.outcome, cell, suits.ignoresCase]
  cases value : record.get field with
  | null => simp [Cell.ofPlain, Cell.lowerText, Cell.text?, likeCells, Filter.likeMatches, Value.isNull]
  | text text =>
      rw [value] at searchable
      have matched := likeText_lowered searchable suits.ascii
      have outcome : likeCells (Cell.ofPlain (.text text)).lowerText (Cell.text term.pattern).lowerText =
          .ofBool (likeText (loweredText text) (loweredText term.pattern)) := rfl
      rw [outcome, Truth.ofBool_eq_yes, SearchTerm.pattern, matched]
      rfl
  | _ =>
      rw [value] at searchable
      cases searchable

/-- The test that a search asks for in one field. -/
def fieldTest (model : Model) (term : SearchTerm) (field : String) :
    Except Error (Condition Operand) := do
  let column ← filterColumn model field
  let pattern := Operand.compared column (.text term.pattern)
  .ok (.test (if term.caseSensitive then .like column pattern else .likeLowered column pattern))

theorem decides_fields {holds : String → Bool} {fields : List String}
    (each : ∀ field ∈ fields, ∃ test, fieldTest model term field = .ok test ∧
      Condition.Decides row test (holds field)) :
    ∃ tests, fields.mapM (fieldTest model term) = .ok tests ∧
      List.Forall₂ (Condition.Decides row) tests (fields.map holds) := by
  induction fields with
  | nil => exact ⟨[], rfl, List.Forall₂.nil⟩
  | cons field fields induction =>
      rw [List.forall_mem_cons] at each
      obtain ⟨test, built, decides⟩ := each.1
      obtain ⟨tests, builtRest, decideRest⟩ := induction each.2
      refine ⟨test :: tests, ?_, List.Forall₂.cons decides decideRest⟩
      rw [List.mapM_cons, built, builtRest]
      rfl

/-- A search becomes a condition that selects a row when the test of one of its fields does. -/
theorem decides_someField {holds : String → Bool}
    (each : ∀ field ∈ term.fields, ∃ test, fieldTest model term field = .ok test ∧
      Condition.Decides row test (holds field)) :
    ∃ condition, Condition.ofSearch model term = .ok condition ∧
      Condition.Decides row condition (term.fields.any holds) := by
  obtain ⟨tests, built, decide⟩ := decides_fields each
  have built : Condition.ofSearch model term =
      if tests.isEmpty then .ok (.constant false) else .ok (Condition.disjunction tests) := by
    change term.fields.mapM (fieldTest model term) >>= _ = _
    rw [built]
    rfl
  have evaluated : (term.fields.map holds).any id = term.fields.any holds := by
    rw [List.any_map]
    rfl
  cases tests with
  | nil =>
      refine ⟨.constant false, built, ?_⟩
      rw [← evaluated, List.forall₂_nil_left_iff.mp decide]
      exact Condition.decides_constant false
  | cons test tests =>
      refine ⟨_, built, ?_⟩
      rw [← evaluated]
      exact Condition.decides_disjunction decide

/-- A search for an ASCII text becomes a condition that selects what the search accepts. -/
theorem decides_search (suits : SearchSuits model term) (keeps : RowKeeps model record row)
    (searchable : ∀ field ∈ term.fields, isSearchable (record.get field) = true) :
    ∃ condition, Condition.ofSearch model term = .ok condition ∧
      Condition.Decides row condition (term.evaluate record) := by
  refine decides_someField fun field member => ?_
  obtain ⟨column, found, isText⟩ := suits.inTexts field member
  have named : filterColumn model field = .ok column := by rw [filterColumn, found]
  refine ⟨_, ?_, decides_field suits found isText keeps (searchable field member)⟩
  rw [fieldTest, named, suits.ignoresCase]
  rfl

end Searches

/-! ## Rows of plain values -/

/-- The row that keeps a record of whole numbers, texts, flags and nulls. -/
def plainRow (model : Model) (record : Record) : Row :=
  model.columns.map fun column => (column.name, Cell.ofPlain (record.get column.name))

theorem cell_plainRow {model : Model} {record : Record} {column : Column}
    (found : model.column? column.name = some column) :
    (plainRow model record).cell column.name = Cell.ofPlain (record.get column.name) := by
  unfold Model.column? at found
  unfold plainRow Row.cell
  have general : ∀ columns : List Column,
      columns.find? (fun other => other.name == column.name) = some column →
      (columns.map fun column => (column.name, Cell.ofPlain (record.get column.name))).lookup
        column.name = some (Cell.ofPlain (record.get column.name)) := by
    intro columns found
    induction columns with
    | nil => cases found
    | cons first columns induction =>
        rw [List.map_cons, Entries.lookup_cons]
        rw [List.find?_cons] at found
        by_cases same : first.name = column.name
        · rw [if_pos same.symm, same]
        · rw [if_neg (Ne.symm same)]
          have different : (first.name == column.name) = false := beq_eq_false_iff_ne.mpr same
          rw [different] at found
          exact induction found
  rw [general model.columns found, Option.getD_some]

/-- A null is kept as an empty cell. -/
theorem keeps_null (column : Column) : Keeps column .null .null where
  typed := .inl rfl
  written := by
    have sent : (Operand.written column .null).toCell = .ok .null := by
      unfold Operand.written
      cases column.type <;> rfl
    rw [sent]
    unfold columnAffinity
    cases column.type <;> rfl
  read := rfl

theorem keeps_plain {column : Column} (plain : column.type.isPlain = true) {value : Value}
    (owned : column.type.owns value = true) : Keeps column value (Cell.ofPlain value) where
  typed := .inr owned
  written := by
    rw [Operand.written, toCell_plain plain owned, columnAffinity]
    exact congrArg Except.ok (stored_ofPlain plain owned)
  read := by
    rcases ColumnType.owns_cases plain owned with
      ⟨type, number, rfl, _⟩ | ⟨type, spelled, rfl⟩ | ⟨type, flag, rfl⟩ <;> rw [type]
    · rfl
    · rfl
    · cases flag <;> rfl

/-- Every record of whole numbers, texts, flags and nulls in columns of their types is kept by a row. -/
theorem rowKeeps_plainRow {model : Model} {record : Record}
    (typed : ∀ column, model.column? column.name = some column →
      record.get column.name = .null ∨
        column.type.isPlain = true ∧ column.type.owns (record.get column.name) = true) :
    RowKeeps model record (plainRow model record) := by
  intro column found
  rw [cell_plainRow found]
  cases typed column found with
  | inl null =>
      rw [null]
      exact keeps_null column
  | inr plain => exact keeps_plain plain.1 plain.2

/-! ## Agreement -/

namespace Condition

/-- A condition with its parameters prepared and then sent. -/
def sent (condition : Condition Operand) : Except Error (Condition Cell) := do
  let prepared ← mapParameters Operand.prepare condition
  mapParameters Cell.ofValue prepared

theorem Decides.sent {row : Row} {condition : Condition Operand} {holds : Bool}
    (decides : Decides row condition holds) :
    ∃ cells, condition.sent = .ok cells ∧ (tests cells).any hasLongPattern = false ∧
      (outcome row cells = .yes ↔ holds = true) := by
  obtain ⟨cells, toCells, short, outcome⟩ := decides
  obtain ⟨prepared, isPrepared, isSent⟩ :=
    divides_mapParameters (divides_bind Operand.prepare Cell.ofValue) condition cells toCells
  refine ⟨cells, ?_, short, outcome⟩
  rw [Condition.sent, isPrepared]
  exact isSent

end Condition

/-- On a row that keeps a record, the condition of a filter that suits the model is yes exactly when
the filter holds for the record, and the condition of a search for an ASCII text exactly when the
search finds the record.  Neither fails to be compiled, sent or evaluated. -/
theorem compiled_selects {model : Model} {record : Record} {row : Row}
    (keeps : RowKeeps model record row) :
    (∀ node : Filter.Node, node.suits model = true →
      ∃ condition cells holds, Condition.ofNode model node = .ok condition ∧
        condition.sent = .ok cells ∧ node.evaluate record = .ok holds ∧
        (cells.outcome row = .yes ↔ holds = true)) ∧
      ∀ term : SearchTerm, SearchSuits model term →
        (∀ field ∈ term.fields, isSearchable (record.get field) = true) →
        ∃ condition cells, Condition.ofSearch model term = .ok condition ∧
          condition.sent = .ok cells ∧ cells.tests.any Condition.hasLongPattern = false ∧
          (cells.outcome row = .yes ↔ term.evaluate record = true) := by
  constructor
  · intro node suits
    obtain ⟨condition, holds, built, evaluated, decides⟩ := decides_node keeps node suits
    obtain ⟨cells, sent, _, outcome⟩ := decides.sent
    exact ⟨condition, cells, holds, built, sent, evaluated, outcome⟩
  · intro term suits searchable
    obtain ⟨condition, built, decides⟩ := decides_search suits keeps searchable
    obtain ⟨cells, sent, short, outcome⟩ := decides.sent
    exact ⟨condition, cells, built, sent, short, outcome⟩

section Comments

open Samples

/-- A comment that stands alone. -/
def looseComment : Record :=
  [("id", .int 1), ("body", .text "Great"), ("post_id", .null), ("author_id", .int 2),
    ("approved", .bool true)]

/-- Approved comments by none of two authors, or comments that pass an empty group and an empty list. -/
def commentFilter : Filter.Node :=
  .group .both [
    .leaf ⟨"approved", .eq, .bool true, .both⟩,
    .leaf ⟨"author_id", .notIn, .list [.int 3, .int 4], .both⟩,
    .group .either [.group .both [], .leaf ⟨"post_id", .notIn, .list [], .both⟩]]

theorem rowKeeps_looseComment :
    RowKeeps Blog.comment looseComment (plainRow Blog.comment looseComment) := by
  apply rowKeeps_plainRow
  intro column found
  have each : ∀ column ∈ Blog.comment.columns, (looseComment.get column.name).isNull = true ∨
      column.type.isPlain = true ∧ column.type.owns (looseComment.get column.name) = true := by
    decide
  exact (each column (List.mem_of_find?_eq_some found)).imp_left Value.isNull_iff.mp

theorem compiled_selects_looseComment :
    (∃ condition cells holds, Condition.ofNode Blog.comment commentFilter = .ok condition ∧
        condition.sent = .ok cells ∧ commentFilter.evaluate looseComment = .ok holds ∧
        (cells.outcome (plainRow Blog.comment looseComment) = .yes ↔ holds = true)) ∧
      ∃ condition cells, Condition.ofSearch Blog.comment ⟨"R_A", ["body"], false⟩ = .ok condition ∧
        condition.sent = .ok cells ∧ cells.tests.any Condition.hasLongPattern = false ∧
        (cells.outcome (plainRow Blog.comment looseComment) = .yes ↔
          SearchTerm.evaluate ⟨"R_A", ["body"], false⟩ looseComment = true) := by
  have selects := compiled_selects rowKeeps_looseComment
  constructor
  · exact selects.1 commentFilter (by decide)
  · apply selects.2
    · exact ⟨rfl, by decide, by decide, by
        intro field member
        rw [List.mem_singleton.mp member]
        exact ⟨_, rfl, rfl⟩⟩
    · decide

end Comments

end Sql

end ResourceServer
