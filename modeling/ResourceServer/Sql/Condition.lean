import ResourceServer.Filter.Like
import ResourceServer.Sql.Cell

/-!
# Conditions on rows

A condition is built from tests of columns by conjunction and disjunction. Its parameters are of any type:
what a client gave, what is sent to the database, or cells. On cells a condition is yes, no or unknown,
for a test of an empty cell is neither; a query selects the rows for which it is yes.
-/

namespace ResourceServer.Sql

/-- The outcome of a condition. -/
inductive Truth
  | no
  | unknown
  | yes
deriving DecidableEq, Repr, Inhabited

namespace Truth

/-- The outcome of a decided test. -/
def ofBool (holds : Bool) : Truth := if holds then .yes else .no

/-- The outcome of a test that may be undecided. -/
def ofOption : Option Bool → Truth
  | some holds => ofBool holds
  | none => .unknown

/-- The opposite outcome. -/
def negate : Truth → Truth
  | .no => .yes
  | .unknown => .unknown
  | .yes => .no

/-- Both of two outcomes. -/
def both : Truth → Truth → Truth
  | .no, _ => .no
  | _, .no => .no
  | .yes, other => other
  | other, .yes => other
  | .unknown, .unknown => .unknown

/-- One of two outcomes. -/
def either : Truth → Truth → Truth
  | .yes, _ => .yes
  | _, .yes => .yes
  | .no, other => other
  | other, .no => other
  | .unknown, .unknown => .unknown

/-- Whether the outcome selects a row. -/
def selects : Truth → Bool
  | .yes => true
  | _ => false

end Truth

/-- A comparison of two cells. -/
inductive Comparator
  | eq
  | ne
  | gt
  | ge
  | lt
  | le
deriving DecidableEq, Repr

namespace Comparator

/-- The sign of a comparison. -/
def sign : Comparator → String
  | .eq => "="
  | .ne => "!="
  | .gt => ">"
  | .ge => ">="
  | .lt => "<"
  | .le => "<="

/-- Whether a comparison accepts an order. -/
def accepts : Comparator → Ordering → Bool
  | .eq, ordering => ordering == .eq
  | .ne, ordering => ordering != .eq
  | .gt, ordering => ordering == .gt
  | .ge, ordering => ordering != .lt
  | .lt, ordering => ordering == .lt
  | .le, ordering => ordering != .gt

end Comparator

/-- A test of one column. -/
inductive Test (π : Type)
  /-- The column compares with a parameter. -/
  | compare (column : Column) (comparator : Comparator) (parameter : π)
  /-- The column is, or is not, one of the numbers that stand for true and false. -/
  | flag (column : Column) (equal flag : Bool)
  /-- The column is empty, or is not. -/
  | empty (column : Column) (isEmpty : Bool)
  /-- The column is, or is not, among parameters; one that is missing is an empty cell. -/
  | among (column : Column) (isIn : Bool) (parameters : List (Option π))
  /-- The text of the column matches a pattern. -/
  | like (column : Column) (pattern : π)
  /-- The text of the column matches a pattern, both written in small letters. -/
  | likeLowered (column : Column) (pattern : π)
deriving Repr, Inhabited

/-- A condition on the rows of a table. -/
inductive Condition (π : Type)
  | constant (holds : Bool)
  | test (test : Test π)
  | all (conditions : List (Condition π))
  | any (conditions : List (Condition π))
deriving Repr, Inhabited

/-- The cells of a row by column. -/
abbrev Row := List (String × Cell)

/-- The cell of a column. -/
def Row.cell (row : Row) (column : String) : Cell := (row.lookup column).getD .null

/-! ## Patterns -/

/-- A letter of the English alphabet in its small form. -/
def lowered (character : Char) : Char := if character.isUpper then character.toLower else character

/-- Whether two characters are the same but for the case of English letters. -/
def sameLetter (expected actual : Char) : Bool := lowered expected == lowered actual

/-- The part of a text that patterns see: it ends before the first null character. -/
def visible (text : String) : List Char := text.toList.takeWhile fun character => character.toNat != 0

/-- Whether a pattern covers a text, the case of English letters ignored. -/
def likeText (text pattern : String) : Bool :=
  (Filter.remainingAfter sameLetter (visible pattern) [visible text]).any List.isEmpty

/-- Matching of two cells by their texts. -/
def likeCells (cell pattern : Cell) : Truth :=
  match cell.text?, pattern.text? with
  | some text, some pattern => .ofBool (likeText text pattern)
  | _, _ => .unknown

/-- A cell as text in small letters. -/
def Cell.lowerText (cell : Cell) : Cell :=
  match cell.text? with
  | some spelled => .text (String.ofList (spelled.toList.map lowered))
  | none => .null

/-! ## Outcome on a row -/

/-- The affinity of a column. -/
def columnAffinity (column : Column) : Affinity := .ofType column.type

/-- The outcome of a comparison of a column with a cell. -/
def compareCell (column : Column) (comparator : Comparator) (row : Row) (cell : Cell) : Truth :=
  .ofOption ((Cell.orderUnder? (columnAffinity column) (row.cell column.name) cell).map comparator.accepts)

namespace Test

/-- The outcome of a test on a row. -/
def outcome (row : Row) : Test Cell → Truth
  | compare column comparator parameter => compareCell column comparator row parameter
  | flag column equal value =>
      compareCell column (if equal then .eq else .ne) row (.integer (if value then 1 else 0))
  | empty column isEmpty => .ofBool ((row.cell column.name).isNull == isEmpty)
  | among column isIn parameters =>
      let found := parameters.foldr (fun parameter outcome =>
        (compareCell column .eq row (parameter.getD .null)).either outcome) .no
      if isIn then found else found.negate
  | like column pattern => likeCells (row.cell column.name) pattern
  | likeLowered column pattern => likeCells (row.cell column.name).lowerText pattern.lowerText

end Test

namespace Condition

mutual

/-- The outcome of a condition on a row. -/
def outcome (row : Row) : Condition Cell → Truth
  | constant holds => .ofBool holds
  | test given => given.outcome row
  | all conditions => outcomeOfAll row conditions
  | any conditions => outcomeOfAny row conditions

/-- The outcome of a conjunction. -/
def outcomeOfAll (row : Row) : List (Condition Cell) → Truth
  | [] => .yes
  | condition :: rest => (outcome row condition).both (outcomeOfAll row rest)

/-- The outcome of a disjunction. -/
def outcomeOfAny (row : Row) : List (Condition Cell) → Truth
  | [] => .no
  | condition :: rest => (outcome row condition).either (outcomeOfAny row rest)

end

end Condition

/-! ## Parameters -/

section

variable {π ρ ε : Type}

/-- The parameters of a test, in order. -/
def Test.parameters : Test π → List π
  | .compare _ _ parameter | .like _ parameter | .likeLowered _ parameter => [parameter]
  | .flag .. | .empty .. => []
  | .among _ _ parameters => parameters.filterMap id

/-- Changes the parameters of a test by a step that may fail. -/
def Test.mapParameters (step : π → Except ε ρ) : Test π → Except ε (Test ρ)
  | .compare column comparator parameter => (step parameter).map (.compare column comparator)
  | .flag column equal value => .ok (.flag column equal value)
  | .empty column isEmpty => .ok (.empty column isEmpty)
  | .among column isIn parameters =>
      (parameters.mapM fun parameter =>
        match parameter with
        | some given => (step given).map some
        | none => .ok none).map (.among column isIn)
  | .like column pattern => (step pattern).map (.like column)
  | .likeLowered column pattern => (step pattern).map (.likeLowered column)

namespace Condition

mutual

/-- The parameters of a condition, in order. -/
def parameters : Condition π → List π
  | constant _ => []
  | test given => given.parameters
  | all conditions => parametersOf conditions
  | any conditions => parametersOf conditions

/-- The parameters of several conditions. -/
def parametersOf : List (Condition π) → List π
  | [] => []
  | condition :: rest => parameters condition ++ parametersOf rest

end

mutual

/-- Changes the parameters of a condition by a step that may fail. -/
def mapParameters (step : π → Except ε ρ) : Condition π → Except ε (Condition ρ)
  | constant holds => .ok (constant holds)
  | test given => (given.mapParameters step).map test
  | all conditions => (mapParametersOf step conditions).map all
  | any conditions => (mapParametersOf step conditions).map any

/-- Changes the parameters of several conditions. -/
def mapParametersOf (step : π → Except ε ρ) : List (Condition π) → Except ε (List (Condition ρ))
  | [] => .ok []
  | condition :: rest => do
      let changed ← mapParameters step condition
      let others ← mapParametersOf step rest
      .ok (changed :: others)

end

end Condition

end

/-! ## Building -/

namespace Condition

variable {π : Type}

/-- Whether a condition is the empty conjunction, which restricts nothing. -/
def isVacuous : Condition π → Bool
  | all [] => true
  | _ => false

/-- The conjunction of conditions. Empty conjunctions among them are left out; when nothing else is
left, the result is a constant. -/
def conjunction (conditions : List (Condition π)) : Condition π :=
  match conditions.filter fun condition => !condition.isVacuous with
  | [] => if conditions.isEmpty then all [] else constant true
  | [condition] => condition
  | several => all several

/-- The alternatives that a condition consists of. -/
def alternatives : Condition π → List (Condition π)
  | any conditions => conditions
  | condition => [condition]

/-- The disjunction of conditions. -/
def disjunction (conditions : List (Condition π)) : Condition π :=
  match conditions with
  | [condition] => condition
  | several => any (several.flatMap alternatives)

end Condition

/-! ## Text -/

section

variable {π : Type}

/-- The name of a column, with its table. -/
def qualified (table column : String) : String := table ++ "." ++ column

/-- The list of parameters of a membership test. -/
def membersText (parameters : List (Option π)) : String :=
  if parameters.isEmpty then "(SELECT 1 FROM (SELECT 1) WHERE 1!=1)"
  else
    "(" ++ String.intercalate ", " (parameters.map fun parameter => if parameter.isSome then "?" else "NULL")
      ++ ")"

/-- A test as it is written in a statement. -/
def Test.text (table : String) : Test π → String
  | .compare column comparator _ => qualified table column.name ++ " " ++ comparator.sign ++ " ?"
  | .flag column equal value =>
      qualified table column.name ++ (if equal then " = " else " != ") ++ (if value then "1" else "0")
  | .empty column isEmpty =>
      qualified table column.name ++ (if isEmpty then " IS NULL" else " IS NOT NULL")
  | .among column isIn parameters =>
      let name := qualified table column.name
      if isIn then name ++ " IN " ++ membersText parameters
      else "(" ++ name ++ " NOT IN " ++ membersText parameters ++ ")"
  | .like column _ => qualified table column.name ++ " LIKE ?"
  | .likeLowered column _ => "lower(" ++ qualified table column.name ++ ") LIKE lower(?)"

namespace Condition

mutual

/-- A condition as it is written in a statement. -/
def text (table : String) : Condition π → String
  | constant holds => if holds then "1 = 1" else "0 = 1"
  | test given => given.text table
  | all [] => "1 = 1"
  | all conditions => String.intercalate " AND " (textsOf table conditions)
  | any conditions => String.intercalate " OR " (textsInside table conditions)

/-- The members of a conjunction; a disjunction among them stands in parentheses. -/
def textsOf (table : String) : List (Condition π) → List String
  | [] => []
  | any conditions :: rest =>
      ("(" ++ String.intercalate " OR " (textsInside table conditions) ++ ")") :: textsOf table rest
  | condition :: rest => text table condition :: textsOf table rest

/-- The members of a disjunction. -/
def textsInside (table : String) : List (Condition π) → List String
  | [] => []
  | condition :: rest => text table condition :: textsInside table rest

end

end Condition

end

end ResourceServer.Sql
