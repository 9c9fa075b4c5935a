import ResourceServer.Proofs.Memory.Integrity
import ResourceServer.Proofs.Sql.Correspondence
import ResourceServer.Proofs.Sql.Rows

/-!
# Rows and the records that are read of them

A counted resource numbers its rows: the number of a row is its key.  The cells of a filed row stand
for the values of its record, so rows agree in unique columns exactly when their records have equal
values there that are not null, and a database refuses a row for its values exactly when a store
in memory refuses its record.
-/

namespace ResourceServer

/-- What is found under a name in a record with an entry for each column. -/
theorem Model.lookup_columns {α : Type} (model : Model) (valueOf : Column → α) (name : String) :
    (model.columns.map fun column => (column.name, valueOf column)).lookup name =
      (model.column? name).map valueOf := by
  unfold Model.column?
  induction model.columns with
  | nil => rfl
  | cons column columns induction =>
      rw [List.map_cons, Entries.lookup_cons, List.find?_cons]
      by_cases same : name = column.name
      · rw [if_pos same, same, beq_self_eq_true]
        rfl
      · rw [if_neg same, beq_eq_false_iff_ne.mpr (Ne.symm same)]
        exact induction

/-- A resource whose rows are numbered: its key column holds whole numbers, has no default, and is the
only column of the primary key. -/
structure Resource.IsCounted (resource : Resource) : Prop where
  distinct : resource.model.columnNames.Nodup
  key : ∃ column, resource.model.columns.filter Column.isPrimary = [column] ∧
    column.name = resource.keyName ∧ column.type = .integer ∧
      (column.fallback.getD .null).isNull = true

namespace Resource.IsCounted

variable {resource : Resource}

/-- The key column of a counted resource is the number of its rows in a database. -/
theorem keyColumn (counted : resource.IsCounted) :
    ∃ column ∈ resource.model.columns, Sql.rowNumberColumn? resource.model = some column ∧
      column.name = resource.keyName ∧ column.type = .integer ∧ column.isPrimary = true ∧
        (column.fallback.getD .null).isNull = true ∧
          ∀ other ∈ resource.model.columns, other.isPrimary = true → other = column := by
  obtain ⟨column, isOnly, named, isInteger, noDefault⟩ := counted.key
  have isColumn : column ∈ resource.model.columns.filter Column.isPrimary := by simp [isOnly]
  obtain ⟨member, isPrimary⟩ := List.mem_filter.mp isColumn
  refine ⟨column, member, ?_, named, isInteger, isPrimary, noDefault, ?_⟩
  · have filtered : Sql.rowNumberColumn? resource.model =
        (resource.model.columns.filter Column.isPrimary).find? (·.type == .integer) := by
      rw [List.find?_filter, Sql.rowNumberColumn?]
      congr 1
      funext other
      cases other.isPrimary <;> simp [Bool.beq_eq_decide_eq]
    rw [filtered, isOnly, List.find?_cons, isInteger]
    rfl
  · intro other isOther otherPrimary
    have isPrimary := List.mem_filter.mpr ⟨isOther, otherPrimary⟩
    rw [isOnly] at isPrimary
    exact List.mem_singleton.mp isPrimary

theorem eq_of_name (counted : resource.IsCounted) {column other : Column}
    (isColumn : column ∈ resource.model.columns) (isOther : other ∈ resource.model.columns)
    (same : column.name = other.name) : column = other :=
  List.inj_on_of_nodup_map counted.distinct isColumn isOther same

theorem column?_eq (counted : resource.IsCounted) {column : Column}
    (isColumn : column ∈ resource.model.columns) :
    resource.model.column? column.name = some column := by
  obtain ⟨found, isFound⟩ := Model.exists_column? (List.mem_map_of_mem isColumn)
  rw [isFound, counted.eq_of_name (List.mem_of_find?_eq_some isFound) isColumn
    (Model.name_of_column? isFound)]

end Resource.IsCounted

namespace Sql

/-- The record that is read of a row. -/
def Row.record (model : Model) (row : Row) : Record :=
  model.columns.map fun column => (column.name, (row.cell column.name).read column.type)

/-- A row as a table of a resource holds it under a number: it has the columns of the model, of which
those that must not be empty are not, and its cells stand for the values that are read of them. -/
structure Row.Filed (resource : Resource) (number : Int) (row : Row) : Prop where
  names : row.map Prod.fst = resource.model.columnNames
  key : row.cell resource.keyName = .integer number
  forms : ∀ column ∈ resource.model.columns,
    Cell.Form column.type (row.cell column.name) ((row.cell column.name).read column.type)
  filled : ∀ column ∈ resource.model.columns, isRequired column = true →
    (row.cell column.name).isNull = false

section

variable {resource : Resource} {number otherNumber : Int} {row other : Row}

/-- The cell under a name and what is found in the record under it have one form, which depends on the
name alone. -/
theorem Row.Filed.form (filed : Row.Filed resource number row) (name : String) :
    Cell.Form ((resource.model.column? name).elim .text Column.type) (row.cell name)
      ((row.record resource.model).get name) := by
  rw [Record.get, Row.record, Model.lookup_columns]
  cases found : resource.model.column? name with
  | none =>
      have absent : name ∉ row.map Prod.fst := by
        rw [filed.names]
        intro isName
        obtain ⟨column, isColumn⟩ := Model.exists_column? isName
        rw [found] at isColumn
        cases isColumn
      rw [Row.cell_of_not_mem absent]
      exact .null
  | some column =>
      obtain rfl := Model.name_of_column? found
      exact filed.forms column (List.mem_of_find?_eq_some found)

theorem Cell.Form.isSameNaN_eq {type : ColumnType} {cell : Cell} {value : Value}
    (form : Cell.Form type cell value) (other : Value) : Value.isSameNaN other value = false := by
  cases form with
  | @real _ _ double isNumber =>
      cases double with
      | nan mark => cases isNumber
      | _ => cases other <;> first | rfl | (rename_i left; cases left <;> rfl)
  | _ => cases other <;> rfl

/-- Rows agree in some columns exactly when their records have equal values there, none of which is
null. -/
theorem agrees_eq (filed : Row.Filed resource number row)
    (filedOther : Row.Filed resource otherNumber other) (columns : List String) :
    Row.agrees columns row other =
      (!(columns.map (row.record resource.model).get).any Value.isNull &&
        Value.sameItems (columns.map (other.record resource.model).get)
          (columns.map (row.record resource.model).get)) := by
  induction columns with
  | nil => rfl
  | cons name columns induction =>
      have form := filed.form name
      have formOther := filedOther.form name
      rw [Row.agrees] at induction ⊢
      rw [List.all_cons, induction, List.map_cons, List.map_cons, List.any_cons, Value.sameItems,
        form.isSameNaN_eq, Bool.false_or, ← form.isNull_eq]
      cases isNull : (row.cell name).isNull with
      | true => simp
      | false =>
          rw [form.order_eq formOther isNull]
          cases ((other.record resource.model).get name).same
            ((row.record resource.model).get name) <;> simp

/-- The sets of columns that a database keeps unique in the table of a counted resource. -/
theorem mem_uniqueSets (counted : resource.IsCounted) {columns : List String} :
    columns ∈ uniqueSets resource.model ↔ resource.model.DemandsUnique columns := by
  obtain ⟨column, _, isNumber, _, _, _, _, only⟩ := counted.keyColumn
  have noOther : resource.model.columns.filter (fun other =>
      other.isPrimary && some other.name != (rowNumberColumn? resource.model).map Column.name) =
        [] := by
    rw [List.filter_eq_nil_iff, isNumber]
    intro other isOther differs
    rw [Bool.and_eq_true] at differs
    rw [only other isOther differs.1] at differs
    simp at differs
  rw [uniqueSets, noOther, Model.DemandsUnique]
  simp only [List.map_nil, List.isEmpty_nil, if_true, List.append_nil, List.mem_reverse,
    List.mem_append, List.mem_map, List.mem_filter]
  rw [or_comm]
  refine or_congr_right ⟨?_, ?_⟩
  · rintro ⟨column, ⟨member, isUnique⟩, rfl⟩
    exact ⟨column, member, isUnique, rfl⟩
  · rintro ⟨column, member, isUnique, rfl⟩
    exact ⟨column, ⟨member, isUnique⟩, rfl⟩

/-- Whether a row agrees with one of some rows where they may not. -/
def collides (model : Model) (row : Row) (rows : List (Int × Row)) : Bool :=
  (uniqueSets model).any fun columns => rows.any fun entry => Row.agrees columns row entry.2

/-- The entry of a store in memory for a row of a table. -/
def Row.entry (model : Model) (numbered : Int × Row) : Value × Record :=
  (.int numbered.1, numbered.2.record model)

/-- A store in memory finds that a record repeats others exactly when its row agrees with theirs. -/
theorem repeated?_isSome (counted : resource.IsCounted) {table : ResourceServer.Table}
    {rows : List (Int × Row)} {key : Value}
    (same : (table.filter fun entry => !entry.1.same key).Perm
      (rows.map (Row.entry resource.model)))
    (filed : Row.Filed resource number row)
    (filedRows : ∀ numbered ∈ rows, Row.Filed resource numbered.1 numbered.2) :
    (Contents.repeated? resource table key (row.record resource.model)).isSome =
      collides resource.model row rows := by
  have each : ∀ columns : List String,
      ((!(columns.map (row.record resource.model).get).any Value.isNull &&
        table.any fun entry => !entry.1.same key &&
          Value.sameItems (columns.map entry.2.get)
            (columns.map (row.record resource.model).get)) = true ↔
        (rows.any fun numbered => Row.agrees columns row numbered.2) = true) := by
    intro columns
    have sameAny : (table.any fun entry => !entry.1.same key &&
        Value.sameItems (columns.map entry.2.get)
          (columns.map (row.record resource.model).get)) =
        rows.any fun numbered => Value.sameItems (columns.map (numbered.2.record resource.model).get)
          (columns.map (row.record resource.model).get) := by
      rw [← List.any_filter, same.any_eq, List.any_map]
      rfl
    rw [sameAny, Bool.and_eq_true, List.any_eq_true, List.any_eq_true]
    constructor
    · rintro ⟨noNull, numbered, member, sameItems⟩
      refine ⟨numbered, member, ?_⟩
      rw [agrees_eq filed (filedRows numbered member), noNull]
      exact sameItems
    · rintro ⟨numbered, member, agrees⟩
      rw [agrees_eq filed (filedRows numbered member), Bool.and_eq_true] at agrees
      exact ⟨agrees.1, numbered, member, agrees.2⟩
  rw [Bool.eq_iff_iff, Contents.repeated?, List.find?_isSome, collides, List.any_eq_true]
  refine exists_congr fun columns => and_congr ?_ (each columns)
  rw [Model.mem_uniqueColumnSets, mem_uniqueSets counted]

end

end Sql

end ResourceServer
