import ResourceServer.Sql.Statement

/-!
# Databases

A database holds tables, and a table holds rows in the order of their row numbers. A whole-number primary
key is the row number itself; otherwise the next one is taken. Writing checks that columns that must not be
empty are not, and that rows do not repeat the values of unique columns.
-/

namespace ResourceServer.Sql

/-- A table: the shape of its rows, and the rows by number. -/
structure Table where
  model : Model
  rows : List (Int × Row) := []
deriving Repr, Inhabited

/-- The tables by name. -/
abbrev Database := List (String × Table)

/-! ## The shape of a table -/

/-- The column that is the row number, if any. -/
def rowNumberColumn? (model : Model) : Option Column :=
  model.columns.find? fun column => column.isPrimary && column.type == .integer

/-- Whether a column must not be empty. -/
def isRequired (column : Column) : Bool := column.isPrimary || !column.nullable

/-- The sets of columns whose values may not repeat, in the order in which they are checked: the primary
key comes last. -/
def uniqueSets (model : Model) : List (List String) :=
  let singles := (model.columns.filter Column.isUnique).map fun column => [column.name]
  let primary := (model.columns.filter fun column =>
    column.isPrimary && some column.name != (rowNumberColumn? model).map Column.name).map Column.name
  (singles ++ model.uniqueSets).reverse ++ (if primary.isEmpty then [] else [primary])

namespace Row

/-- The row with another cell in a column. -/
def withCell (row : Row) (column : String) (cell : Cell) : Row :=
  row.map fun entry => if entry.1 == column then (column, cell) else entry

/-- Whether two rows have equal cells in all of some columns, none of them empty. -/
def agrees (columns : List String) (left right : Row) : Bool :=
  columns.all fun column =>
    !(left.cell column).isNull && (left.cell column).order (right.cell column) == .eq

end Row

namespace Database

/-- The table of a model. -/
def table (database : Database) (model : Model) : Except Error Table :=
  match database.lookup model.table with
  | some table => .ok table
  | none => .error (.plain .operational)

/-- The database with another table in the place of the one of its name. -/
def withTable (database : Database) (table : Table) : Database :=
  database.map fun entry => if entry.1 == table.model.table then (entry.1, table) else entry

/-- The database with an empty table for each model that has none. -/
def prepared (database : Database) (models : List Model) : Database :=
  models.foldl (fun tables model =>
    if tables.any (·.1 == model.table) then tables else tables ++ [(model.table, { model := model })]) database

end Database

/-! ## Reading -/

/-- The greatest number of bytes of a pattern. -/
def patternLimit : Nat := 50000

namespace Condition

/-- Whether a test has a pattern that is too long. -/
def hasLongPattern : Test Cell → Bool
  | .like _ pattern | .likeLowered _ pattern =>
      match pattern.text? with
      | some text => patternLimit < text.utf8ByteSize
      | none => false
  | _ => false

mutual

/-- The tests of a condition. -/
def tests {π : Type} : Condition π → List (Test π)
  | constant _ => []
  | test given => [given]
  | all conditions => testsOf conditions
  | any conditions => testsOf conditions

/-- The tests of several conditions. -/
def testsOf {π : Type} : List (Condition π) → List (Test π)
  | [] => []
  | condition :: rest => tests condition ++ testsOf rest

end

/-- Whether conditions select a row. -/
def select (conditions : List (Condition Cell)) (row : Row) : Bool :=
  (outcomeOfAll row conditions).selects

end Condition

/-- The rows of a table that conditions select. Looking for a pattern that is too long fails. -/
def matchingRows (table : Table) (conditions : List (Condition Cell)) : Except Error (List Row) :=
  if !table.rows.isEmpty && (Condition.testsOf conditions).any Condition.hasLongPattern then
    .error (.plain .operational)
  else .ok ((table.rows.map Prod.snd).filter (Condition.select conditions))

/-- Whether two joined cells are equal, each in its own column. -/
def joins (left : Column) (leftCell : Cell) (right : Column) (rightCell : Cell) : Bool :=
  let affinities := [columnAffinity left, columnAffinity right]
  if leftCell.isNull || rightCell.isNull then false
  else if affinities.all (· == .text) then leftCell.order rightCell == .eq
  else leftCell.asNumber.order rightCell.asNumber == .eq

/-- Number of rows of a target that a selected count counts for an owner's row. -/
def countFor (count : CountColumn) (target : Table) (owner : Row) : Nat :=
  (target.rows.map Prod.snd).countP fun row =>
    joins count.targetColumn (row.cell count.targetColumn.name) count.ownerColumn
      (owner.cell count.ownerColumn.name)
    && count.liveColumn.all fun column => (row.cell column.name).isNull

/-- A selected row and its counts by name. -/
structure Selected where
  row : Row
  counts : List (String × Nat)
deriving Repr, Inhabited

namespace Selected

/-- The cell that a row is sorted by. -/
def sortCell (selected : Selected) : SortKey → Cell
  | .column column => selected.row.cell column.name
  | .count count => .integer ((selected.counts.lookup count.label).getD 0 : Nat)

/-- The order of two rows under a list of sort keys. -/
def order : List (SortKey × SortDirection) → Selected → Selected → Ordering
  | [], _, _ => .eq
  | (key, direction) :: rest, left, right =>
      let first := (left.sortCell key).order (right.sortCell key)
      let directed := match direction with
        | .ascending => first
        | .descending => first.swap
      directed.then (order rest left right)

/-- The values that a row is read as. -/
def toRecord (columns : List Column) (selected : Selected) : Record :=
  (columns.map fun column => (column.name, (selected.row.cell column.name).read column.type))
    ++ selected.counts.map fun (name, count) => (name, .int count)

end Selected

/-- The whole number in a cell. -/
def Cell.number : Cell → Int
  | .integer value => value
  | _ => 0

/-- The part of a list that a window shows. A negative limit is none, a negative offset is zero. -/
def Window.apply {α : Type} (window : Window Cell) (items : List α) : List α :=
  let rest := items.drop window.offset.number.toNat
  if window.limit.number < 0 then rest else rest.take window.limit.number.toNat

namespace Select

/-- The rows that a query selects, in order. -/
def run (query : Select Cell) (database : Database) : Except Error (List Record) := do
  let table ← database.table query.model
  let targets ← query.counts.mapM fun count => (database.table count.target).map fun target => (count, target)
  let rows ← matchingRows table query.conditions
  let selected := rows.map fun row : Row =>
    (⟨row, targets.map fun (count, target) => (count.label, countFor count target row)⟩ : Selected)
  let sorted := selected.mergeSort fun left right => Selected.order query.order left right != .gt
  let shown := match query.window with
    | some window => window.apply sorted
    | none => sorted
  .ok (shown.map (Selected.toRecord query.columns))

end Select

/-- The number of rows that a query counts. -/
def Count.run (query : Count Cell) (database : Database) : Except Error Int := do
  let table ← database.table query.model
  let rows ← matchingRows table query.conditions
  .ok rows.length

/-! ## Writing -/

namespace Table

/-- The row number that a new row gets when it has none of its own. -/
def nextNumber (table : Table) : Int :=
  match table.rows.getLast? with
  | some (number, _) => number + 1
  | none => 1

/-- Puts a row in its place. -/
def place (table : Table) (number : Int) (row : Row) : Table :=
  let before := table.rows.takeWhile fun entry => entry.1 < number
  let after := table.rows.dropWhile fun entry => entry.1 < number
  { table with rows := before ++ (number, row) :: after }

/-- The table without the row of a number. -/
def remove (table : Table) (number : Int) : Table :=
  { table with rows := table.rows.filter fun entry => entry.1 != number }

/-- The first column that must not be empty and is. -/
def missing? (model : Model) (row : Row) : Option Column :=
  model.columns.find? fun column => isRequired column && (row.cell column.name).isNull

/-- Adds a checked row under a number. -/
def add (table : Table) (number : Int) (row : Row) : Except Error Table :=
  let model := table.model
  match missing? model row with
  | some column => .error (.integrity (.notNull model.table column.name))
  | none =>
      match rowNumberColumn? model, table.rows.any (·.1 == number) with
      | some column, true => .error (.integrity (.unique model.table [column.name]))
      | _, _ =>
          match (uniqueSets model).find? fun columns =>
              table.rows.any fun entry => Row.agrees columns row entry.2 with
          | some columns => .error (.integrity (.unique model.table columns))
          | none => .ok (table.place number row)

/-- The row number that a written cell asks for; none is asked for by an empty one. -/
def numberOf? : Cell → Except Error (Option Int)
  | .null => .ok none
  | cell =>
      match Affinity.numeric.stored cell with
      | .integer number => .ok (some number)
      | _ => .error (.integrity .datatype)

/-- The row number that written columns ask for. -/
def givenNumber? (model : Model) (values : List (Column × Cell)) : Except Error (Option Int) :=
  match rowNumberColumn? model with
  | none => .ok none
  | some column =>
      match values.find? fun entry => entry.1.name == column.name with
      | some entry => numberOf? entry.2
      | none => .ok none

/-- A row with written columns, as the columns keep them. -/
def writeCells (row : Row) (values : List (Column × Cell)) : Row :=
  values.foldl (fun result entry =>
    result.withCell entry.1.name ((columnAffinity entry.1).stored entry.2)) row

/-- A row with its own number in the column for it. -/
def withNumber (model : Model) (number : Int) (row : Row) : Row :=
  match rowNumberColumn? model with
  | some column => row.withCell column.name (.integer number)
  | none => row

/-- Adds a row; yields its number. -/
def insert (table : Table) (values : List (Column × Cell)) : Except Error (Int × Table) := do
  let model := table.model
  let given ← givenNumber? model values
  let number := given.getD table.nextNumber
  let row := writeCells (model.columnNames.map fun name => (name, .null)) values
  let after ← table.add number (withNumber model number row)
  .ok (number, after)

/-- Changes one row. A row number cannot be taken away. -/
def change (changes : List (Column × Cell)) (table : Table) (entry : Int × Row) : Except Error Table := do
  let model := table.model
  let given ← givenNumber? model changes
  let keepsNumber := !(changes.any fun change =>
    some change.1.name == (rowNumberColumn? model).map Column.name)
  match if keepsNumber then some entry.1 else given with
  | none => .error (.integrity .datatype)
  | some number =>
      (table.remove entry.1).add number (withNumber model number (writeCells entry.2 changes))

/-- The rows that pass a test. -/
def passing (table : Table) (test : Test Cell) : List (Int × Row) :=
  table.rows.filter fun entry => (test.outcome entry.2).selects

end Table

/-- Adds a row; yields its number. -/
def Insert.run (statement : Insert Cell) (database : Database) : Except Error (Int × Database) := do
  let table ← database.table statement.model
  let (number, after) ← table.insert statement.values
  .ok (number, database.withTable after)

/-- Changes rows; yields how many. When one of them cannot be changed, none is. -/
def Update.run (statement : Update Cell) (database : Database) : Except Error (Int × Database) := do
  let table ← database.table statement.model
  let entries := table.passing statement.test
  let after ← entries.foldlM (Table.change statement.changes) table
  .ok (entries.length, database.withTable after)

/-- Removes rows; yields how many. -/
def Delete.run (statement : Delete Cell) (database : Database) : Except Error (Int × Database) := do
  let table ← database.table statement.model
  let entries := table.passing statement.test
  .ok (entries.length, database.withTable (entries.foldl (fun kept entry => kept.remove entry.1) table))

end ResourceServer.Sql
