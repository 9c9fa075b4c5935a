import ResourceServer.Error

/-!
# Filter trees

A filter is a comparison of one field or a group of filters. Inside a group every child but the first
joins what stands before it by `and` or by `or`, and `and` binds more tightly: the children fall into
runs joined by `and`, and the runs are joined by `or`.
-/

namespace ResourceServer.Filter

/-- A comparison of a field with an operand. -/
structure Leaf where
  field : String
  operator : Operator
  operand : Value := .null
  combinator : Combinator := .both
deriving Repr, Inhabited

/-- A filter tree. -/
inductive Node
  | leaf (leaf : Leaf)
  | group (combinator : Combinator) (children : List Node)
deriving Repr, Inhabited

/-- Adds an item in front of runs: to the first of them, unless the item after it opens a run. -/
def consRun {α : Type} (opens : α → Bool) (item : α) (next : List α) (runs : List (List α)) :
    List (List α) :=
  match next, runs with
  | following :: _, run :: rest => if opens following then [item] :: run :: rest else (item :: run) :: rest
  | _, _ => [item] :: runs

/-- Splits a list into runs; every item that opens a run starts a new one. -/
def runsBy {α : Type} (opens : α → Bool) : List α → List (List α)
  | [] => []
  | item :: rest => consRun opens item rest (runsBy opens rest)

namespace Node

/-- How a node joins the nodes before it. -/
def combinator : Node → Combinator
  | .leaf comparison => comparison.combinator
  | .group combinator _ => combinator

/-- The node with another combinator. -/
def withCombinator (combinator : Combinator) : Node → Node
  | .leaf comparison => .leaf { comparison with combinator }
  | .group _ children => .group combinator children

/-- The node joined to those before it by `or`. -/
def orElse (node : Node) : Node := node.withCombinator .either

/-- Whether a node opens a new run. -/
def opensRun (node : Node) : Bool := node.combinator == .either

/-- Splits siblings into the runs joined by `and`. The combinator of the first sibling is ignored. -/
def runs (nodes : List Node) : List (List Node) := runsBy opensRun nodes

mutual

/-- Number of nested groups; a leaf has depth zero. -/
def depth : Node → Nat
  | .leaf _ => 0
  | .group _ children => 1 + depthOf children

/-- The greatest depth in a list of nodes. -/
def depthOf : List Node → Nat
  | [] => 0
  | node :: rest => max (depth node) (depthOf rest)

end

mutual

/-- The fields a tree names, in order and with repetitions. -/
def fields : Node → List String
  | .leaf comparison => [comparison.field]
  | .group _ children => fieldsOf children

/-- The fields that a list of nodes names. -/
def fieldsOf : List Node → List String
  | [] => []
  | node :: rest => fields node ++ fieldsOf rest

end

end Node

/-- The scalar kinds an operand may have, in the order in which they are tried. -/
def scalarReports (input : Value) : List Report :=
  [(Report.notText input).within [.name "str"], (Report.notInteger input).within [.name "int"],
    (Report.notNumber input).within [.name "float"], (Report.notBoolean input).within [.name "bool"]]

/-- Whether a value is a scalar operand. -/
def isScalar : Value → Bool
  | .bool _ | .int _ | .float _ | .text _ => true
  | _ => false

/-- The name under which reports mention the list alternative of an operand. -/
def listAlternative : Place := .name "list[union[str,int,float,bool]]"

/-- The reports on the items of an operand list from a position on. -/
def itemReports : (position : Nat) → List Value → List Report
  | _, [] => []
  | position, item :: rest =>
      (if isScalar item then []
       else (scalarReports item).map (Report.within [listAlternative, .index position]))
        ++ itemReports (position + 1) rest

/-- The reports on an operand that is neither a scalar, nor a list of scalars, nor null. -/
def operandReports (operand : Value) : List Report :=
  match operand with
  | .null => []
  | .list items =>
      match itemReports 0 items with
      | [] => []
      | reports => scalarReports operand ++ reports
  | _ =>
      if isScalar operand then []
      else scalarReports operand ++ [(Report.notList operand).within [listAlternative]]

/-- What is wrong with the shape of an operand under an operator. -/
def shapeFault? (operator : Operator) (operand : Value) : Option String :=
  if operator.takesList then
    if operand.isList then none else some s!"Operator '{operator.word}' requires a list value"
  else if operator.takesNothing then
    if operand.isNull then none else some s!"Operator '{operator.word}' does not take a value"
  else if operand.isNull || operand.isList then
    some s!"Operator '{operator.word}' requires a scalar value"
  else none

/-- The report on an operand of the wrong shape. -/
def shapeReport (reason : String) : Report := ⟨"value_error", [], "Value error, " ++ reason, .null⟩

namespace Leaf

/-- Whether operator and operand fit together. -/
def isWellShaped (leaf : Leaf) : Bool := (shapeFault? leaf.operator leaf.operand).isNone

/-- A leaf whose operand has been checked against its operator. -/
def make (field : String) (operator : Operator) (operand : Value) (combinator : Combinator := .both) :
    Except Error Leaf :=
  match operandReports operand with
  | [] =>
      match shapeFault? operator operand with
      | none => .ok ⟨field, operator, operand, combinator⟩
      | some reason => .error (.validation [shapeReport reason])
  | reports => .error (.validation (reports.map (Report.within [.name "value"])))

/-- The names of the operators in the order in which reports list them. -/
def operatorWords : List String := Operator.supported.map Operator.word

/-- The reports on a part that must be a text. -/
def textReports (input : Option Value) (whole : Value) : List Report :=
  match input with
  | none => [Report.missing whole]
  | some (.text _) => []
  | some other => [Report.notText other]

/-- Checks the parts of a leaf that are given by name; parts without a meaning are ignored. -/
def ofParts (parts : Record) : Except Error Leaf :=
  let fieldReports := (textReports (parts.get? "field") (.object parts)).map (Report.within [.name "field"])
  let operator : Except Report Operator :=
    match parts.get? "op" with
    | none => .error (Report.missing (.object parts))
    | some (.text word) =>
        match Operator.ofWord? word with
        | some operator => .ok operator
        | none => .error (Report.notMember operatorWords (.text word))
    | some other => .error (Report.notMember operatorWords other)
  let operatorReports :=
    match operator with
    | .ok _ => []
    | .error report => [report.within [.name "op"]]
  let operand := (parts.get? "value").getD .null
  let valueReports := (operandReports operand).map (Report.within [.name "value"])
  let combinator : Except Report Combinator :=
    match parts.get? "combinator" with
    | none => .ok .both
    | some (.text word) =>
        match Combinator.ofWord? word with
        | some combinator => .ok combinator
        | none => .error (Report.notMember ["and", "or"] (.text word))
    | some other => .error (Report.notMember ["and", "or"] other)
  let combinatorReports :=
    match combinator with
    | .ok _ => []
    | .error report => [report.within [.name "combinator"]]
  match operator, combinator, parts.get? "field",
      fieldReports ++ operatorReports ++ valueReports ++ combinatorReports with
  | .ok operator, .ok combinator, some (.text field), [] => make field operator operand combinator
  | _, _, _, reports => .error (.validation reports)

end Leaf

namespace Node

/-- The reports on the children of a group from a position on: a leaf put together without a check
is checked when it is put into a group. A leaf under an unknown operator and without a scalar operand
cannot even be reported. -/
def childReports : (position : Nat) → List Node → Except Error (List Report)
  | _, [] => .ok []
  | position, .group .. :: rest => childReports (position + 1) rest
  | position, .leaf comparison :: rest => do
      match shapeFault? comparison.operator comparison.operand, comparison.operator with
      | none, _ => childReports (position + 1) rest
      | some _, .unknown _ => .error (.plain .attribute)
      | some reason, _ =>
          let place := [Place.name "children", .index position]
          let reports ← childReports (position + 1) rest
          .ok ((shapeReport reason).within
              (place ++ [.name "function-after[_check_value_shape(), ComparisonFilter]"])
            :: ⟨"model_type", place ++ [.name "GroupFilter"],
              "Input should be a valid dictionary or instance of GroupFilter", .null⟩
            :: reports)

/-- A group whose children have been checked. -/
def makeGroup (combinator : Combinator) (children : List Node) : Except Error Node := do
  match ← childReports 0 children with
  | [] => .ok (.group combinator children)
  | reports => .error (.validation reports)

/-- A group whose children are all joined by `and`. -/
def allOf (children : List Node) : Except Error Node :=
  makeGroup .both (children.map (withCombinator .both))

/-- A group whose children are all joined by `or`. -/
def anyOf (children : List Node) : Except Error Node :=
  makeGroup .both (children.map (withCombinator .either))

/-- A group with a combinator given as a value. -/
def groupOfParts (combinator : Option Value) (children : List Node) : Except Error Node := do
  let reports ← childReports 0 children
  let parsed : Except Report Combinator :=
    match combinator with
    | none => .ok .both
    | some (.text word) =>
        match Combinator.ofWord? word with
        | some combinator => .ok combinator
        | none => .error (Report.notMember ["and", "or"] (.text word))
    | some other => .error (Report.notMember ["and", "or"] other)
  match parsed, reports with
  | .ok combinator, [] => .ok (.group combinator children)
  | .ok _, reports => .error (.validation reports)
  | .error report, reports => .error (.validation (report.within [.name "combinator"] :: reports))

end Node

end ResourceServer.Filter
