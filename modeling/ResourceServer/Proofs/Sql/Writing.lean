import ResourceServer.Proofs.Sql.Sending
import ResourceServer.Proofs.Sql.Uniqueness

/-!
# Rows that are written

The values of a new row, and those that changes give a row, are written to the cells of their columns.
When every column keeps its value, the row is filed again, and the record that is read of it is the one
that a store in memory files.  A row is given its number in the key column: its own, the next
one, or the one that its key is.
-/

namespace ResourceServer

/-! ## Records with an entry for each column -/

namespace Model

variable {model : Model} {valueOf : Column → Value} {name : String}

theorem set_columns (isColumn : name ∈ model.columnNames) (value : Value) :
    Record.set (model.columns.map fun column => (column.name, valueOf column)) name value =
      model.columns.map fun column =>
        (column.name, if column.name = name then value else valueOf column) := by
  have present : Record.has (model.columns.map fun column => (column.name, valueOf column)) name =
      true := by
    obtain ⟨column, member, rfl⟩ := List.mem_map.mp isColumn
    rw [Record.has, List.any_eq_true]
    exact ⟨_, List.mem_map_of_mem member, beq_self_eq_true column.name⟩
  rw [Record.set, present, if_pos rfl, List.map_map]
  refine List.map_congr_left fun column _ => ?_
  simp only [Function.comp_apply, beq_iff_eq]
  split
  · rename_i same
    rw [same]
  · rfl

/-- Changes of some columns, each changed once, merged into a record of all columns. -/
theorem merge_columns {changes : Record} (distinct : changes.names.Nodup)
    (areColumns : ∀ name ∈ changes.names, name ∈ model.columnNames) :
    Record.merge (model.columns.map fun column => (column.name, valueOf column)) changes =
      model.columns.map fun column =>
        (column.name, (changes.get? column.name).getD (valueOf column)) := by
  induction changes generalizing valueOf with
  | nil => rfl
  | cons change changes induction =>
      obtain ⟨name, value⟩ := change
      rw [Record.names, List.map_cons, List.nodup_cons] at distinct
      rw [Record.names, List.map_cons, List.forall_mem_cons] at areColumns
      rw [Record.merge, List.foldl_cons, set_columns areColumns.1]
      refine (induction distinct.2 areColumns.2).trans ?_
      refine List.map_congr_left fun column _ => ?_
      rw [Record.get?, Record.get?, Entries.lookup_cons]
      by_cases same : column.name = name
      · have absent : changes.lookup name = none := by
          rw [← Option.isNone_iff_eq_none, ← Option.isSome_eq_false_iff, Entries.lookup_isSome,
            List.any_eq_false]
          intro entry isEntry isName
          exact distinct.1 (List.mem_map.mpr ⟨entry, isEntry, beq_iff_eq.mp isName⟩)
        rw [if_pos same, if_pos same, same, absent]
        rfl
      · rw [if_neg same, if_neg same]

end Model

namespace Sql

/-! ## Rows that are written -/

/-- Cells that are written for the values that some columns are given. -/
structure Writes (columns : List Column) (valueOf : Column → Option Value)
    (cells : List (Column × Cell)) : Prop where
  written : (cells.map Prod.fst).Sublist columns
  given : ∀ entry ∈ cells, (valueOf entry.1).isSome = true
  stands : ∀ column ∈ columns, ∀ value, valueOf column = some value → ∃ cell, (column, cell) ∈ cells ∧
    Cell.StandsFor column.type value ((columnAffinity column).stored cell)

section

variable {columns : List Column} {valueOf : Column → Option Value} {cells : List (Column × Cell)}

/-- Values that their columns keep can be sent. -/
theorem exists_writes (keeps : ∀ column ∈ columns, ∀ value, valueOf column = some value →
      ∃ cell, Cell.StandsFor column.type value cell) :
    ∃ cells, mapWritten Operand.toCell (columns.filterMap fun column =>
        (valueOf column).map fun value => (column, Operand.written column value)) = .ok cells ∧
      Writes columns valueOf cells := by
  induction columns with
  | nil =>
      refine ⟨[], rfl, List.Sublist.refl _, fun entry isEntry => ?_, fun column isColumn => ?_⟩
      · cases isEntry
      · cases isColumn
  | cons column columns induction =>
      rw [List.forall_mem_cons] at keeps
      obtain ⟨cells, sent, writes⟩ := induction keeps.2
      rw [List.filterMap_cons]
      cases isGiven : valueOf column with
      | none =>
          refine ⟨cells, sent, writes.written.cons column, writes.given, ?_⟩
          rw [List.forall_mem_cons]
          refine ⟨fun value some => ?_, writes.stands⟩
          rw [isGiven] at some
          cases some
      | some value =>
          obtain ⟨kept, stands⟩ := keeps.1 value isGiven
          obtain ⟨cell, toCell, rfl⟩ := map_eq_ok.mp stands.written
          refine ⟨(column, cell) :: cells, ?_, writes.written.cons_cons column, ?_, ?_⟩
          · rw [mapWritten] at sent ⊢
            rw [Option.map_some, List.mapM_cons, sent]
            change ((Operand.toCell (Operand.written column value)).map _ >>= _) = _
            rw [Operand.written, toCell]
            rfl
          · rw [List.forall_mem_cons, isGiven]
            exact ⟨rfl, writes.given⟩
          · rw [List.forall_mem_cons]
            refine ⟨fun other some => ?_, fun later member other some => ?_⟩
            · rw [isGiven, Option.some.injEq] at some
              subst some
              refine ⟨cell, List.mem_cons_self, ?_⟩
              rw [columnAffinity]
              exact stands
            · obtain ⟨cell, isWritten, stands⟩ := writes.stands later member other some
              exact ⟨cell, List.mem_cons_of_mem _ isWritten, stands⟩

variable {resource : Resource} {row : Row}

theorem Writes.distinct (writes : Writes resource.model.columns valueOf cells)
    (counted : resource.IsCounted) : (cells.map fun entry => entry.1.name).Nodup := by
  have sublist := writes.written.map Column.name
  rw [List.map_map] at sublist
  exact counted.distinct.sublist sublist

theorem Writes.present (writes : Writes resource.model.columns valueOf cells)
    (names : row.map Prod.fst = resource.model.columnNames) :
    ∀ entry ∈ cells, entry.1.name ∈ row.map Prod.fst := by
  intro entry member
  rw [names]
  exact List.mem_map_of_mem (writes.written.subset (List.mem_map_of_mem member))

/-- A column that is given a value has a cell that stands for it. -/
theorem Writes.cell_given (writes : Writes resource.model.columns valueOf cells)
    (counted : resource.IsCounted) (names : row.map Prod.fst = resource.model.columnNames)
    {column : Column} (isColumn : column ∈ resource.model.columns) {value : Value}
    (isGiven : valueOf column = some value) :
    Cell.StandsFor column.type value ((Table.writeCells row cells).cell column.name) := by
  obtain ⟨cell, isWritten, stands⟩ := writes.stands column isColumn value isGiven
  rwa [Table.cell_writeCells (writes.distinct counted) (writes.present names) isWritten]

theorem Writes.cell_kept (writes : Writes resource.model.columns valueOf cells)
    (counted : resource.IsCounted) (names : row.map Prod.fst = resource.model.columnNames)
    {column : Column} (isColumn : column ∈ resource.model.columns)
    (notGiven : valueOf column = none) :
    (Table.writeCells row cells).cell column.name = row.cell column.name := by
  refine Table.cell_writeCells_other ?_ (writes.present names)
  intro isWritten
  obtain ⟨entry, member, same⟩ := List.mem_map.mp isWritten
  have isEntry := writes.written.subset (List.mem_map_of_mem member)
  have isGiven := writes.given entry member
  rw [counted.eq_of_name isEntry isColumn same, notGiven] at isGiven
  cases isGiven

end

section

variable {resource : Resource} {row : Row} {number : Int}

theorem withNumber_names :
    (Table.withNumber resource.model number row).map Prod.fst = row.map Prod.fst := by
  unfold Table.withNumber
  split
  · exact Row.names_withCell
  · rfl

/-- A row is given its number in the key column. -/
theorem cell_withNumber (counted : resource.IsCounted)
    (names : row.map Prod.fst = resource.model.columnNames) (name : String) :
    (Table.withNumber resource.model number row).cell name =
      if name = resource.keyName then .integer number else row.cell name := by
  obtain ⟨column, member, isNumber, named, _⟩ := counted.keyColumn
  rw [Table.withNumber, isNumber]
  dsimp only
  rw [Row.cell_withCell (by rw [names]; exact List.mem_map_of_mem member), named]

/-- A row that is given its number is filed when its other cells stand for values, and those that
must not be empty are not. -/
theorem filed_withNumber (counted : resource.IsCounted)
    (names : row.map Prod.fst = resource.model.columnNames)
    (stands : ∀ column ∈ resource.model.columns, column.name ≠ resource.keyName →
      Cell.Form column.type (row.cell column.name) ((row.cell column.name).read column.type) ∧
        (isRequired column = true → (row.cell column.name).isNull = false)) :
    Row.Filed resource number (Table.withNumber resource.model number row) where
  names := withNumber_names.trans names
  key := by rw [cell_withNumber counted names, if_pos rfl]
  forms column isColumn := by
    rw [cell_withNumber counted names]
    by_cases isKey : column.name = resource.keyName
    · obtain ⟨keyColumn, member, _, named, isInteger, _⟩ := counted.keyColumn
      obtain rfl := counted.eq_of_name isColumn member (isKey.trans named.symm)
      rw [if_pos isKey, isInteger]
      exact Cell.Form.integer (by decide) (by decide) number
    · rw [if_neg isKey]
      exact (stands column isColumn isKey).1
  filled column isColumn required := by
    rw [cell_withNumber counted names]
    by_cases isKey : column.name = resource.keyName
    · rw [if_pos isKey]
      rfl
    · rw [if_neg isKey]
      exact (stands column isColumn isKey).2 required

end

/-! ## New rows -/

/-- Whether a resource takes values for a new row: every column but that of the key keeps its value,
and null is given only to columns that may be empty and have no default. -/
def TakesRow (resource : Resource) (values : Record) : Prop :=
  ∀ column ∈ resource.model.columns, column.name ≠ resource.keyName →
    (∃ cell, Cell.StandsFor column.type ((resource.model.rowOf values).get column.name) cell) ∧
      ((resource.model.rowOf values).get column.name = .null →
        isRequired column = false ∧ (column.fallback.getD .null).isNull = true)

/-- Values that are plainly of the types of their columns make a row that is taken. -/
theorem takesRow_of_plain {resource : Resource} {values : Record}
    (plain : ∀ column ∈ resource.model.columns, column.name ≠ resource.keyName →
      column.type.keepsPlainly ((resource.model.rowOf values).get column.name) = true ∧
        (((resource.model.rowOf values).get column.name).isNull = true →
          isRequired column = false ∧ (column.fallback.getD .null).isNull = true)) :
    TakesRow resource values := by
  intro column isColumn notKey
  obtain ⟨keeps, empty⟩ := plain column isColumn notKey
  exact ⟨exists_standsFor keeps, fun isNull => empty (Value.isNull_iff.mpr isNull)⟩

/-- The value that is sent for a column of a new row. -/
def insertedValue? (resource : Resource) (values : Record) (column : Column) : Option Value :=
  let value := valueWithDefault column ((resource.model.rowOf values).get column.name)
  if column.isPrimary && value.isNull then none else some value

section

variable {resource : Resource} {values : Record} {number : Int}

theorem ofValues_eq (resource : Resource) (values : Record) :
    (Insert.ofValues resource values).values = resource.model.columns.filterMap fun column =>
      (insertedValue? resource values column).map fun value =>
        (column, Operand.written column value) := by
  refine List.filterMap_congr fun column _ => ?_
  unfold insertedValue?
  dsimp only
  split
  · rfl
  · rfl

theorem valueWithDefault_of_some {column : Column} {value : Value} (notNull : value ≠ .null) :
    valueWithDefault column value = value :=
  if_neg fun isNull => notNull (Value.isNull_iff.mp isNull)

theorem valueWithDefault_null {column : Column}
    (noDefault : (column.fallback.getD .null).isNull = true) :
    valueWithDefault column .null = .null :=
  (if_pos rfl).trans (Value.isNull_iff.mp noDefault)

theorem get_rowOf (counted : resource.IsCounted) {column : Column}
    (isColumn : column ∈ resource.model.columns) :
    (resource.model.rowOf values).get column.name =
      (values.get? column.name).getD (column.fallback.getD .null) := by
  rw [Record.get, Model.rowOf, Model.lookup_columns, counted.column?_eq isColumn]
  rfl

theorem insertedValue?_other (counted : resource.IsCounted) (takes : TakesRow resource values)
    {column : Column} (isColumn : column ∈ resource.model.columns)
    (notKey : column.name ≠ resource.keyName) :
    insertedValue? resource values column =
      some ((resource.model.rowOf values).get column.name) := by
  obtain ⟨keyColumn, _, _, named, _, _, _, only⟩ := counted.keyColumn
  have notPrimary : column.isPrimary = false := by
    rw [Bool.eq_false_iff]
    intro isPrimary
    exact notKey (by rw [only column isColumn isPrimary, named])
  rw [insertedValue?, notPrimary, Bool.false_and, if_neg Bool.false_ne_true]
  by_cases isNull : (resource.model.rowOf values).get column.name = .null
  · rw [isNull, valueWithDefault_null ((takes column isColumn notKey).2 isNull).2]
  · rw [valueWithDefault_of_some isNull]

/-- The key that is sent for a new row, if any. -/
theorem insertedValue?_key (counted : resource.IsCounted) (values : Record) {column : Column}
    (isColumn : column ∈ resource.model.columns) (named : column.name = resource.keyName) :
    insertedValue? resource values column =
      if ((resource.model.rowOf values).get resource.keyName).isNull then none
      else some ((resource.model.rowOf values).get resource.keyName) := by
  obtain ⟨keyColumn, member, _, keyNamed, _, isPrimary, noDefault, _⟩ := counted.keyColumn
  obtain rfl := counted.eq_of_name isColumn member (named.trans keyNamed.symm)
  rw [insertedValue?, isPrimary, Bool.true_and, named]
  cases isNull : ((resource.model.rowOf values).get resource.keyName).isNull with
  | true =>
      rw [Value.isNull_iff.mp isNull, valueWithDefault_null noDefault]
      rfl
  | false =>
      have some : (resource.model.rowOf values).get resource.keyName ≠ .null := by
        intro null
        rw [null] at isNull
        cases isNull
      rw [valueWithDefault_of_some some, isNull]

/-- The row that a new row begins with. -/
abbrev emptyRow (model : Model) : Row := model.columnNames.map fun name => (name, .null)

theorem names_emptyRow (model : Model) : (emptyRow model).map Prod.fst = model.columnNames := by
  rw [List.map_map]
  exact List.map_id _

/-- The row of a new record, under a number. -/
abbrev newRow (model : Model) (number : Int) (cells : List (Column × Cell)) : Row :=
  Table.withNumber model number (Table.writeCells (emptyRow model) cells)

variable {cells : List (Column × Cell)}

/-- A new row is filed, and its record is the one that a store in memory files. -/
theorem newRow_filed (counted : resource.IsCounted) (takes : TakesRow resource values)
    (writes : Writes resource.model.columns (insertedValue? resource values) cells) (number : Int) :
    Row.Filed resource number (newRow resource.model number cells) ∧
      (newRow resource.model number cells).record resource.model =
        (resource.model.rowOf values).set resource.keyName (.int number) := by
  have names : (Table.writeCells (emptyRow resource.model) cells).map Prod.fst =
      resource.model.columnNames :=
    Table.names_writeCells.trans (names_emptyRow resource.model)
  have stands : ∀ column ∈ resource.model.columns, column.name ≠ resource.keyName →
      Cell.StandsFor column.type ((resource.model.rowOf values).get column.name)
        ((Table.writeCells (emptyRow resource.model) cells).cell column.name) :=
    fun column isColumn notKey => writes.cell_given counted (names_emptyRow resource.model)
      isColumn (insertedValue?_other counted takes isColumn notKey)
  refine ⟨filed_withNumber counted names fun column isColumn notKey => ?_, ?_⟩
  · have stands := stands column isColumn notKey
    rw [stands.read]
    refine ⟨stands.form, fun required => ?_⟩
    rw [stands.form.isNull_eq, Bool.eq_false_iff]
    intro isNull
    rw [((takes column isColumn notKey).2 (Value.isNull_iff.mp isNull)).1] at required
    cases required
  · obtain ⟨keyColumn, member, _, named, isInteger, _⟩ := counted.keyColumn
    have isKeyName : resource.keyName ∈ resource.model.columnNames := by
      rw [← named]
      exact List.mem_map_of_mem member
    rw [Model.rowOf, Model.set_columns isKeyName, Row.record]
    refine List.map_congr_left fun column isColumn => ?_
    rw [cell_withNumber counted names]
    by_cases isKey : column.name = resource.keyName
    · obtain rfl := counted.eq_of_name isColumn member (isKey.trans named.symm)
      rw [if_pos isKey, if_pos isKey, isInteger]
      rfl
    · rw [if_neg isKey, if_neg isKey, (stands column isColumn isKey).read,
        get_rowOf counted isColumn]

end

/-! ## Changed rows -/

/-- Whether a resource takes changes of a row: each is made once, in a column but that of the key which
keeps its value, and null is given only to columns that may be empty. -/
structure TakesChanges (resource : Resource) (changes : Record) : Prop where
  once : changes.names.Nodup
  each : ∀ change ∈ changes, change.1 ≠ resource.keyName ∧
    ∃ column ∈ resource.model.columns, column.name = change.1 ∧
      (∃ cell, Cell.StandsFor column.type change.2 cell) ∧
        (change.2 = .null → isRequired column = false)

section

variable {resource : Resource} {changes : Record} {number : Int} {row : Row}
  {cells : List (Column × Cell)}

theorem TakesChanges.of_get? (takes : TakesChanges resource changes) (counted : resource.IsCounted)
    {column : Column} (isColumn : column ∈ resource.model.columns) {value : Value}
    (changed : changes.get? column.name = some value) :
    column.name ≠ resource.keyName ∧ (∃ cell, Cell.StandsFor column.type value cell) ∧
      (value = .null → isRequired column = false) := by
  obtain ⟨notKey, other, isOther, named, keeps, filled⟩ :=
    takes.each _ (Entries.mem_of_lookup changed)
  obtain rfl := counted.eq_of_name isOther isColumn named
  exact ⟨notKey, keeps, filled⟩

/-- The row that changes make of a row, under the same number. -/
abbrev changedRow (model : Model) (number : Int) (row : Row) (cells : List (Column × Cell)) : Row :=
  Table.withNumber model number (Table.writeCells row cells)

/-- A changed row is filed again, and its record is the one with the changes merged into it. -/
theorem changedRow_filed (counted : resource.IsCounted) (takes : TakesChanges resource changes)
    (writes : Writes resource.model.columns (fun column => changes.get? column.name) cells)
    (filed : Row.Filed resource number row) :
    Row.Filed resource number (changedRow resource.model number row cells) ∧
      (changedRow resource.model number row cells).record resource.model =
        (row.record resource.model).merge changes := by
  have names : (Table.writeCells row cells).map Prod.fst = resource.model.columnNames :=
    Table.names_writeCells.trans filed.names
  refine ⟨filed_withNumber counted names fun column isColumn notKey => ?_, ?_⟩
  · cases changed : changes.get? column.name with
    | none =>
        rw [writes.cell_kept counted filed.names isColumn changed]
        exact ⟨filed.forms column isColumn, filed.filled column isColumn⟩
    | some value =>
        have stands := writes.cell_given counted filed.names isColumn changed
        rw [stands.read]
        refine ⟨stands.form, fun required => ?_⟩
        rw [stands.form.isNull_eq, Bool.eq_false_iff]
        intro isNull
        rw [(takes.of_get? counted isColumn changed).2.2 (Value.isNull_iff.mp isNull)] at required
        cases required
  · have areColumns : ∀ name ∈ changes.names, name ∈ resource.model.columnNames := by
      intro name isName
      obtain ⟨change, isChange, rfl⟩ := List.mem_map.mp isName
      obtain ⟨_, column, isColumn, named, _⟩ := takes.each change isChange
      exact List.mem_map.mpr ⟨column, isColumn, named⟩
    rw [Row.record, Row.record, Model.merge_columns takes.once areColumns]
    refine List.map_congr_left fun column isColumn => ?_
    rw [cell_withNumber counted names]
    cases changed : changes.get? column.name with
    | none =>
        rw [writes.cell_kept counted filed.names isColumn changed]
        by_cases isKey : column.name = resource.keyName
        · rw [if_pos isKey, isKey, filed.key]
          rfl
        · rw [if_neg isKey]
          rfl
    | some value =>
        rw [if_neg (takes.of_get? counted isColumn changed).1,
          (writes.cell_given counted filed.names isColumn changed).read]
        rfl

/-- Changes ask for no other number. -/
theorem givenNumber?_changes (counted : resource.IsCounted) (takes : TakesChanges resource changes)
    (writes : Writes resource.model.columns (fun column => changes.get? column.name) cells) :
    Table.givenNumber? resource.model cells = .ok none ∧
      (cells.any fun change =>
        some change.1.name == (rowNumberColumn? resource.model).map Column.name) = false := by
  obtain ⟨keyColumn, member, isNumber, named, _⟩ := counted.keyColumn
  have notKey : ∀ entry ∈ cells, entry.1.name ≠ keyColumn.name := by
    intro entry isEntry
    have isColumn := writes.written.subset (List.mem_map_of_mem isEntry)
    obtain ⟨value, changed⟩ := Option.isSome_iff_exists.mp (writes.given entry isEntry)
    rw [named]
    exact (takes.of_get? counted isColumn changed).1
  refine ⟨?_, ?_⟩
  · have unnamed : cells.find? (fun entry => entry.1.name == keyColumn.name) = none := by
      rw [List.find?_eq_none]
      intro entry isEntry same
      exact notKey entry isEntry (beq_iff_eq.mp same)
    rw [Table.givenNumber?, isNumber]
    dsimp only
    rw [unnamed]
  · rw [List.any_eq_false, isNumber]
    intro entry isEntry same
    exact notKey entry isEntry (by simpa using same)

theorem numberOf?_of_stored {cell : Cell} (stored : Affinity.numeric.stored cell = .integer number) :
    Table.numberOf? cell = .ok (some number) := by
  unfold Table.numberOf?
  split
  · cases stored
  · rw [stored]

/-- A new row asks for the number that its key is. -/
theorem givenNumber?_newRow (counted : resource.IsCounted) {values : Record}
    (writes : Writes resource.model.columns (insertedValue? resource values) cells) :
    ((resource.model.rowOf values).get resource.keyName = .null →
      Table.givenNumber? resource.model cells = .ok none) ∧
    ∀ key : Int, (resource.model.rowOf values).get resource.keyName = .int key →
      Table.givenNumber? resource.model cells = .ok (some key) := by
  obtain ⟨keyColumn, member, isNumber, named, isInteger, _⟩ := counted.keyColumn
  have isSent := insertedValue?_key counted values member named
  rw [Table.givenNumber?, isNumber]
  dsimp only
  refine ⟨fun keyless => ?_, fun key isKey => ?_⟩
  · rw [keyless, if_pos (show Value.null.isNull = true from rfl)] at isSent
    have unnamed : cells.find? (fun entry => entry.1.name == keyColumn.name) = none := by
      rw [List.find?_eq_none]
      intro entry isEntry same
      have isColumn := writes.written.subset (List.mem_map_of_mem isEntry)
      have given := writes.given entry isEntry
      rw [counted.eq_of_name isColumn member (beq_iff_eq.mp same), isSent] at given
      cases given
    rw [unnamed]
  · rw [isKey, if_neg (by simp [Value.isNull])] at isSent
    obtain ⟨cell, isWritten, stands⟩ := writes.stands keyColumn member _ isSent
    have found : cells.find? (fun entry => entry.1.name == keyColumn.name) =
        some (keyColumn, cell) := by
      cases isFound : cells.find? fun entry => entry.1.name == keyColumn.name with
      | none =>
          have unnamed := List.find?_eq_none.mp isFound _ isWritten
          exact absurd (beq_self_eq_true keyColumn.name) unnamed
      | some entry =>
          have sameName := List.find?_some isFound
          rw [List.inj_on_of_nodup_map (writes.distinct counted) (List.mem_of_find?_eq_some isFound)
            isWritten (beq_iff_eq.mp sameName)]
    have stored : Affinity.numeric.stored cell = .integer key := by
      have read := stands.read
      rw [columnAffinity, isInteger] at read
      change (Affinity.numeric.stored cell).read .integer = .int key at read
      cases isStored : Affinity.numeric.stored cell with
      | integer number =>
          rw [isStored] at read
          cases read
          rfl
      | _ =>
          rw [isStored] at read
          cases read
    rw [found]
    exact numberOf?_of_stored stored

end

end Sql

end ResourceServer
