import ResourceServer.Value

/-!
# Models

A model is the shape of a table: its columns with their types and defaults, and the sets of columns
whose values may not repeat.
-/

namespace ResourceServer

/-- The type of a column. An untyped column says nothing about its values. -/
inductive ColumnType
  | integer
  | text
  | real
  | boolean
  | moment
  | untyped
deriving DecidableEq, Repr, Inhabited

/-- A column of a table. -/
structure Column where
  name : String
  type : ColumnType
  nullable : Bool := false
  fallback : Option Value := none
  isPrimary : Bool := false
  isUnique : Bool := false
deriving Repr, Inhabited

/-- The shape of a table. -/
structure Model where
  name : String
  table : String
  columns : List Column
  uniqueSets : List (List String) := []
deriving Repr, Inhabited

namespace Model

/-- The names of the columns, in order. -/
def columnNames (model : Model) : List String := model.columns.map Column.name

/-- The column of a name. -/
def column? (model : Model) (name : String) : Option Column :=
  model.columns.find? fun column => column.name == name

/-- Whether a name is a column. -/
def hasColumn (model : Model) (name : String) : Bool := model.columnNames.contains name

/-- A row from given values: missing columns take their defaults or null, and values of other names
are left out. -/
def rowOf (model : Model) (values : Record) : Record :=
  model.columns.map fun column =>
    (column.name, (values.get? column.name).getD (column.fallback.getD .null))

/-- The sets of columns whose values may not repeat, in the order in which they are checked. -/
def uniqueColumnSets (model : Model) : List (List String) :=
  let singles := (model.columns.filter Column.isUnique).map fun column => [column.name]
  let all := singles.foldl (fun sets set => if sets.contains set then sets else sets ++ [set])
    model.uniqueSets
  all.mergeSort fun left right => compare left right != .gt

end Model

end ResourceServer
