import ResourceServer.Query
import ResourceServer.Sql.Condition
import ResourceServer.Sql.Operand

/-!
# Filters as conditions

A filter tree becomes a condition with the same structure: a leaf becomes a test of its column, the runs
of a group become conjunctions, and the group becomes their disjunction. A search term becomes a
disjunction of pattern tests. Only the columns of the model can be named.
-/

namespace ResourceServer.Sql

/-- The column that a filter names. -/
def filterColumn (model : Model) (field : String) : Except Error Column :=
  match model.column? field with
  | some column => .ok column
  | none => .error (.value (.unknownField field model.name))

/-- The column that a query names outside of filters. -/
def queryColumn (model : Model) (name : String) : Except Error Column :=
  match model.column? name with
  | some column => .ok column
  | none => .error (.lookup (.column name))

/-- The test for equality, or the opposite: null asks for an empty cell and a flag for its number. -/
def equalityTest (column : Column) (equal : Bool) (value : Value) : Test Operand :=
  match value with
  | .null => .empty column equal
  | .bool flag => .flag column equal flag
  | value => .compare column (if equal then .eq else .ne) (.compared column value)

/-- The operand of a test that takes neither null nor a flag. -/
def plainOperand (column : Column) (value : Value) : Except Error Operand :=
  match value with
  | .null | .bool _ => .error (.plain .argument)
  | value => .ok (.compared column value)

/-- The test for membership in a list. When null is in the list, each item is prepared by its own kind,
else all items are prepared as the first one. -/
def membershipTest (column : Column) (isIn : Bool) (items : List Value) : Except Error (Test Operand) :=
  if items.any Value.isNull then
    if items.all Value.isKey then
      .ok (.among column isIn (items.map fun item =>
        if item.isNull then none else some (.compared column item)))
    else .error (.plain .type)
  else
    let preparation := Preparation.ofComparison column.type (items.headD .null)
    .ok (.among column isIn (items.map fun item => some ⟨preparation, item⟩))

/-- The test that a comparison asks for. -/
def Test.ofLeaf (model : Model) (leaf : Filter.Leaf) : Except Error (Test Operand) := do
  let column ← filterColumn model leaf.field
  let ordering (comparator : Comparator) : Except Error (Test Operand) :=
    (plainOperand column leaf.operand).map (.compare column comparator)
  let membership (isIn : Bool) : Except Error (Test Operand) :=
    match leaf.operand with
    | .list items => membershipTest column isIn items
    | other => .error (.value (.operandNotList leaf.operator other.kindWord))
  match leaf.operator with
  | .eq => .ok (equalityTest column true leaf.operand)
  | .ne => .ok (equalityTest column false leaf.operand)
  | .gt => ordering .gt
  | .gte => ordering .ge
  | .lt => ordering .lt
  | .lte => ordering .le
  | .like => (plainOperand column leaf.operand).map (.like column)
  | .isIn => membership true
  | .notIn => membership false
  | .isNull => .ok (.empty column true)
  | .isNotNull => .ok (.empty column false)
  | .unknown word => .error (.value (.unsupportedComparison (.unknown word)))

namespace Condition

/-- The condition of a group, whose members tell whether they open a run. -/
def ofMembers {π : Type} (members : List (Bool × Condition π)) : Condition π :=
  match (Filter.runsBy Prod.fst members).map fun run => conjunction (run.map Prod.snd) with
  | [] => all []
  | clauses => disjunction clauses

mutual

/-- The condition that a filter asks for. -/
def ofNode (model : Model) : Filter.Node → Except Error (Condition Operand)
  | .leaf comparison => (Test.ofLeaf model comparison).map test
  | .group _ children => do
      let members ← ofNodes model children
      .ok (ofMembers members)

/-- The conditions of the members of a group, each with whether it opens a run. -/
def ofNodes (model : Model) : List Filter.Node → Except Error (List (Bool × Condition Operand))
  | [] => .ok []
  | node :: rest => do
      let condition ← ofNode model node
      let others ← ofNodes model rest
      .ok ((node.opensRun, condition) :: others)

end

/-- The condition that a search asks for. A search in no field finds nothing. -/
def ofSearch (model : Model) (term : SearchTerm) : Except Error (Condition Operand) := do
  let tests ← term.fields.mapM fun field => do
    let column ← filterColumn model field
    let pattern := Operand.compared column (.text term.pattern)
    .ok (test (if term.caseSensitive then .like column pattern else .likeLowered column pattern))
  if tests.isEmpty then .ok (constant false) else .ok (disjunction tests)

/-- The condition that the scope of trashed rows asks for, if any. -/
def ofScope (resource : Resource) (scope : TrashedScope) : Except Error (List (Condition Operand)) :=
  if resource.softDeletes then do
    let column ← queryColumn resource.model resource.deletedAtColumn
    match scope with
    | .without => .ok [test (.empty column true)]
    | .included => .ok []
    | .only => .ok [test (.empty column false)]
  else .ok []

/-- The conditions that a specification asks for. -/
def ofSpec (spec : QuerySpec) : Except Error (List (Condition Operand)) := do
  let model := spec.resource.model
  let filters ← spec.wheres.mapM (ofNode model)
  let search ← spec.searchTerm.toList.mapM (ofSearch model)
  let scope ← ofScope spec.resource spec.trashed
  .ok (filters ++ search ++ scope)

/-- Whether a condition is the one that never holds. -/
def isNever {π : Type} : Condition π → Bool
  | constant false => true
  | _ => false

/-- The conditions that a statement states: empty conjunctions are left out, and a condition that never
holds stands for all of them. -/
def stated {π : Type} (conditions : List (Condition π)) : List (Condition π) :=
  if conditions.any isNever then [constant false]
  else
    match conditions.filter fun condition => !condition.isVacuous with
    | [] => if conditions.isEmpty then [] else [constant true]
    | several => several

end Condition

end ResourceServer.Sql
