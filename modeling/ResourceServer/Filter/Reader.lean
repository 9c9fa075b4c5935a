import ResourceServer.Filter
import ResourceServer.Request.Parameter
import ResourceServer.Settings

/-!
# Filters of a request

A request writes its filters as a list of entries. An entry compares a field, or nests further entries;
its `type` joins it to the entries before it. Only fields that a resource lists as filterable may be
compared, and nesting deeper than the settings allow is refused. A comparison for equality with null
means a test for null.
-/

namespace ResourceServer.Filter

namespace Operator

/-- Other spellings of operators. -/
def spellings : List (String × Operator) := [
  ("=", .eq), ("==", .eq), ("!=", .ne), ("<>", .ne), (">", .gt), (">=", .gte), ("<", .lt),
  ("<=", .lte), ("not in", .notIn), ("notin", .notIn), ("not_in", .notIn), ("isnull", .isNull),
  ("is_null", .isNull), ("isnotnull", .isNotNull), ("is_not_null", .isNotNull)]

/-- The operator that a value names: by its own word, by another spelling, or by its word with
letters of the wrong case. -/
def ofValue (value : Value) : Except Error Operator :=
  match value with
  | .text word =>
      let lowered := Text.lowerWord (Text.trim word)
      let found := ofWord? word
        <|> spellings.lookup lowered
        <|> supported.find? fun operator => Text.lowerWord operator.word == lowered
      match found with
      | some operator => .ok operator
      | none => .error (.unsupportedOperator value)
  | _ => .error (.unsupportedOperator value)

/-- The operator that is meant when the operand is null. -/
def forNull : Operator → Operator
  | .eq => .isNull
  | .ne => .isNotNull
  | other => other

end Operator

/-- The combinator of an entry. -/
def Combinator.ofEntry (entry : Record) : Except Error Combinator :=
  let word := (entry.get? "type").getD (.text Combinator.both.word)
  match Combinator.ofWord? (Text.lowerWord word.plain) with
  | some combinator => .ok combinator
  | none => .error (.malformedFilter (.entryType word))

/-- A leaf of a request; what is wrong with its operand is reported with the field. -/
def Leaf.ofOperand (field : String) (operator : Operator) (operand : Value)
    (combinator : Combinator) : Except Error Leaf :=
  match Leaf.make field operator operand combinator with
  | .ok leaf => .ok leaf
  | .error error =>
      match error.reports with
      | report :: _ => .error (.malformedFilter (.invalid field report.message))
      | [] => .error error

/-- Reads an entry that compares a field. -/
def Leaf.ofEntry (resource : Resource) (combinator : Combinator) (entry : Record) :
    Except Error Leaf := do
  match entry.get "field" with
  | .text field =>
      if field.isEmpty then .error (.malformedFilter (.missingField (.object entry)))
      else if !resource.filterable.contains field then
        .error (.fieldNotAllowed field resource.name .filterable)
      else
        let operator ← Operator.ofValue ((entry.get? "operator").getD (.text "="))
        let operand := entry.get "value"
        let operator := if operand.isNull then operator.forNull else operator
        Leaf.ofOperand field operator operand combinator
  | _ => .error (.malformedFilter (.missingField (.object entry)))

namespace Node

/-- Reads an entry, given how to read the entries nested in it. -/
def ofEntryWith (resource : Resource) (readNested : List Value → Except Error (List Node))
    (entry : Value) : Except Error Node :=
  match entry with
  | .object members => do
      let combinator ← Combinator.ofEntry members
      match Record.get? members "nested" with
      | none => do
          let leaf ← Leaf.ofEntry resource combinator members
          .ok (.leaf leaf)
      | some (.list (first :: rest)) => do
          let children ← readNested (first :: rest)
          makeGroup combinator children
      | some _ => .error (.malformedFilter .emptyNesting)
  | other => .error (.malformedFilter (.entryShape other))

/-- Reads an entry in which groups may be nested `remaining` times. -/
def ofEntry (resource : Resource) (limit : Nat) : (remaining : Nat) → Value → Except Error Node
  | 0, entry =>
      ofEntryWith resource (fun _ => .error (.nestingLimit .filters (limit + 1) limit)) entry
  | remaining + 1, entry =>
      ofEntryWith resource (fun nested => nested.mapM (ofEntry resource limit remaining)) entry

/-- Reads the filters of a request: a list of entries, or its encoding as text. No entries mean no
filter. -/
def ofRequest (settings : Settings) (resource : Resource) (raw : Value) :
    Except Error (Option Node) := do
  let entries ← Parameter.decoded raw fun detail => .malformedFilter (.notJson "filters" detail)
  match entries with
  | .null => .ok none
  | .list [] => .ok none
  | .list entries => do
      let children ← entries.mapM (ofEntry resource settings.maxNestedDepth settings.maxNestedDepth)
      let group ← makeGroup .both children
      .ok (some group)
  | _ => .error (.malformedFilter .notList)

end Node

end ResourceServer.Filter
