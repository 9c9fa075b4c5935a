import ResourceServer.Sql.Translation

/-!
# Statements

A statement selects, counts, adds, changes or removes rows of one table. Its text has a question mark for
each parameter; the parameters are kept apart, in the order of these marks.
-/

namespace ResourceServer.Sql

/-- A kind of statement, with parameters of any type. -/
class Statement (σ : Type → Type) where
  /-- The text with marks for the parameters. -/
  text : {π : Type} → σ π → String
  /-- The parameters, in the order of their marks. -/
  parameters : {π : Type} → σ π → List π
  /-- Changes the parameters by a step that may fail. -/
  mapParameters : {π ρ : Type} → (π → Except Error ρ) → σ π → Except Error (σ ρ)

/-- A selected number: how many rows of a target have the value of an owner's column. -/
structure CountColumn where
  label : String
  target : Model
  targetColumn : Column
  ownerColumn : Column
  /-- Only rows where this column is empty are counted. -/
  liveColumn : Option Column
deriving Repr, Inhabited

/-- What rows are sorted by. -/
inductive SortKey
  | column (column : Column)
  | count (count : CountColumn)
deriving Repr, Inhabited

/-- A part of a result. -/
structure Window (π : Type) where
  limit : π
  offset : π
deriving Repr, Inhabited

/-- Selects columns and counts of the rows that match. -/
structure Select (π : Type) where
  model : Model
  columns : List Column
  counts : List CountColumn
  conditions : List (Condition π)
  order : List (SortKey × SortDirection)
  window : Option (Window π)
deriving Repr, Inhabited

/-- Counts the rows that match. -/
structure Count (π : Type) where
  model : Model
  conditions : List (Condition π)
deriving Repr, Inhabited

/-- Adds a row; columns that are not written are empty. -/
structure Insert (π : Type) where
  model : Model
  values : List (Column × π)
deriving Repr, Inhabited

/-- Changes columns of the rows that pass a test. -/
structure Update (π : Type) where
  model : Model
  changes : List (Column × π)
  test : Test π
deriving Repr, Inhabited

/-- Removes the rows that pass a test. -/
structure Delete (π : Type) where
  model : Model
  test : Test π
deriving Repr, Inhabited

/-! ## Text -/

/-- The clause that states conditions, if there are any. -/
def conditionClause {π : Type} (table : String) (conditions : List (Condition π)) : String :=
  match Condition.stated conditions with
  | [] => ""
  | [condition] => " \nWHERE " ++ condition.text table
  | several => " \nWHERE " ++ String.intercalate " AND " (Condition.textsOf table several)

/-- The table a count reads, under a name of its own. -/
def CountColumn.source (count : CountColumn) : String := count.label ++ "_source"

/-- The text of a selected count; counts are numbered from one on. -/
def CountColumn.text (owner : String) (number : Nat) (count : CountColumn) : String :=
  let live := match count.liveColumn with
    | some column => " AND " ++ qualified count.source column.name ++ " IS NULL"
    | none => ""
  "(SELECT count(*) AS count_" ++ toString number ++ " \nFROM " ++ count.target.table ++ " AS "
    ++ count.source ++ " \nWHERE " ++ qualified count.source count.targetColumn.name ++ " = "
    ++ qualified owner count.ownerColumn.name ++ live ++ ") AS " ++ count.label

/-- The texts of counts, numbered from a number on. -/
def countTexts (owner : String) : (number : Nat) → List CountColumn → List String
  | _, [] => []
  | number, count :: rest => count.text owner number :: countTexts owner (number + 1) rest

/-- The text of one sort key. -/
def sortText (table : String) (key : SortKey) (direction : SortDirection) : String :=
  let name := match key with
    | .column column => qualified table column.name
    | .count count => count.label
  name ++ (match direction with
    | .ascending => " ASC"
    | .descending => " DESC")

/-- The text of a test of a row. -/
def testClause {π : Type} (table : String) (test : Test π) : String := " WHERE " ++ test.text table

/-! ## The five kinds -/

section

variable {π ρ : Type}

/-- Changes the parameters of written columns. -/
def mapWritten (step : π → Except Error ρ) (values : List (Column × π)) :
    Except Error (List (Column × ρ)) :=
  values.mapM fun (column, value) => (step value).map fun changed => (column, changed)

/-- Changes the parameters of a window. -/
def mapWindow (step : π → Except Error ρ) : Option (Window π) → Except Error (Option (Window ρ))
  | none => .ok none
  | some window => do
      let limit ← step window.limit
      let offset ← step window.offset
      .ok (some ⟨limit, offset⟩)

end

instance : Statement Select where
  text query :=
    let table := query.model.table
    let columns := query.columns.map fun column => qualified table column.name
    let order := query.order.map fun (key, direction) => sortText table key direction
    "SELECT " ++ String.intercalate ", " (columns ++ countTexts table 1 query.counts) ++ " \nFROM "
      ++ table ++ conditionClause table query.conditions ++ " ORDER BY " ++ String.intercalate ", " order
      ++ (if query.window.isSome then "\n LIMIT ? OFFSET ?" else "")
  parameters query :=
    Condition.parametersOf (Condition.stated query.conditions)
      ++ query.window.toList.flatMap fun window => [window.limit, window.offset]
  mapParameters step query := do
    let conditions ← Condition.mapParametersOf step (Condition.stated query.conditions)
    let window ← mapWindow step query.window
    .ok { query with conditions, window }

instance : Statement Count where
  text query :=
    "SELECT count(*) AS count_1 \nFROM " ++ query.model.table
      ++ conditionClause query.model.table query.conditions
  parameters query := Condition.parametersOf (Condition.stated query.conditions)
  mapParameters step query := do
    let conditions ← Condition.mapParametersOf step (Condition.stated query.conditions)
    .ok { query with conditions }

instance : Statement Insert where
  text statement :=
    let names := statement.values.map fun entry => entry.1.name
    "INSERT INTO " ++ statement.model.table ++ " (" ++ String.intercalate ", " names ++ ") VALUES ("
      ++ String.intercalate ", " (names.map fun _ => "?") ++ ")"
  parameters statement := statement.values.map Prod.snd
  mapParameters step statement := do
    let values ← mapWritten step statement.values
    .ok { statement with values }

instance : Statement Update where
  text statement :=
    let changes := statement.changes.map fun entry => entry.1.name ++ "=?"
    "UPDATE " ++ statement.model.table ++ " SET " ++ String.intercalate ", " changes
      ++ testClause statement.model.table statement.test
  parameters statement := statement.changes.map Prod.snd ++ statement.test.parameters
  mapParameters step statement := do
    let changes ← mapWritten step statement.changes
    let test ← statement.test.mapParameters step
    .ok { statement with changes, test }

instance : Statement Delete where
  text statement :=
    "DELETE FROM " ++ statement.model.table ++ testClause statement.model.table statement.test
  parameters statement := statement.test.parameters
  mapParameters step statement := do
    let test ← statement.test.mapParameters step
    .ok { statement with test }

/-! ## Statements for specifications -/

/-- The count that an aggregate asks for. -/
def CountColumn.ofAggregate (registry : Registry) (resource : Resource) (aggregate : AggregateRequest) :
    Except Error CountColumn := do
  let relation ← resource.relation aggregate.relation
  let target ← registry.resource relation.target
  let (ownerField, targetField) := relation.joiningFields resource target
  let targetColumn ← queryColumn target.model targetField
  let ownerColumn ← queryColumn resource.model ownerField
  let liveColumn ←
    if target.softDeletes then (queryColumn target.model target.deletedAtColumn).map some else .ok none
  .ok { label := aggregate.alias, target := target.model, targetColumn, ownerColumn, liveColumn }

/-- The counts of a specification, each name once. -/
def countColumns (registry : Registry) (spec : QuerySpec) : Except Error (List CountColumn) := do
  let counts ← spec.aggregates.mapM (CountColumn.ofAggregate registry spec.resource)
  .ok (counts.foldl (fun kept count =>
    if kept.any (·.label == count.label) then kept else kept ++ [count]) [])

/-- What a sort field names: a selected count, or a column. -/
def SortKey.ofField (model : Model) (counts : List CountColumn) (field : String) : Except Error SortKey :=
  match counts.find? (·.label == field) with
  | some selected => .ok (.count selected)
  | none => (queryColumn model field).map .column

/-- A whole number as an operand. -/
def numberOperand (value : Int) : Operand := ⟨.asGiven, .int value⟩

/-- The part of a result that an offset and a limit ask for. A negative limit is none. -/
def windowOf (offset limit : Option Int) : Option (Window Operand) :=
  match limit, offset.getD 0 with
  | none, 0 => none
  | limit, offset => some ⟨numberOperand (limit.getD (-1)), numberOperand offset⟩

/-- The query that a specification asks for. Rows are sorted by their key in the end. -/
def Select.ofSpec (registry : Registry) (spec : QuerySpec) (offset limit : Option Int) :
    Except Error (Select Operand) := do
  let model := spec.resource.model
  let counts ← countColumns registry spec
  let columns ← spec.selectedColumns.mapM (queryColumn model)
  let conditions ← Condition.ofSpec spec
  let sorts ← spec.sorts.mapM fun directive =>
    (SortKey.ofField model counts directive.field).map fun key => (key, directive.direction)
  let keyColumn ← queryColumn model spec.resource.keyName
  .ok { model, columns, counts, conditions, order := sorts ++ [(.column keyColumn, .ascending)],
        window := windowOf offset limit }

/-- The count that a specification asks for. -/
def Count.ofSpec (spec : QuerySpec) : Except Error (Count Operand) :=
  (Condition.ofSpec spec).map fun conditions => { model := spec.resource.model, conditions }

/-- A row with its defaults: null stands for a default. -/
def valueWithDefault (column : Column) (value : Value) : Value :=
  if value.isNull then column.fallback.getD .null else value

/-- The statement that adds a row. A primary key that is null is not written. -/
def Insert.ofValues (resource : Resource) (values : Record) : Insert Operand :=
  let row := resource.model.rowOf values
  let written := resource.model.columns.filterMap fun column =>
    let value := valueWithDefault column (row.get column.name)
    if column.isPrimary && value.isNull then none else some (column, Operand.written column value)
  { model := resource.model, values := written }

/-- The key of a row that was added under a number. -/
def insertedKey (resource : Resource) (values : Record) (number : Int) : Value :=
  match resource.model.column? resource.keyName with
  | none => .null
  | some column =>
      let value := valueWithDefault column ((resource.model.rowOf values).get column.name)
      if column.isPrimary && value.isNull then .int number else value

/-- The statement that changes the row of a key. Only columns can be changed. -/
def Update.ofValues (resource : Resource) (test : Test Operand) (values : Record) :
    Except Error (Update Operand) :=
  if values.any fun entry => !resource.model.hasColumn entry.1 then .error (.plain .compilation)
  else
    let changes := resource.model.columns.filterMap fun column =>
      (values.get? column.name).map fun value => (column, Operand.written column value)
    .ok { model := resource.model, changes, test }

/-- The test for the key of a row. -/
def keyTest (resource : Resource) (key : Value) : Except Error (Test Operand) :=
  (queryColumn resource.model resource.keyName).map fun column => equalityTest column true key

end ResourceServer.Sql
