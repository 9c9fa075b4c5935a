import ResourceServer.Filter
import ResourceServer.Filter.Like
import ResourceServer.Report.Reader

/-!
# Search terms

A search term is found in a record when one of its fields contains the text of the term, wildcards of
the term included.
-/

namespace ResourceServer

/-- A text looked for in several fields. -/
structure SearchTerm where
  value : String
  fields : List String
  caseSensitive : Bool := true
deriving Repr, DecidableEq, Inhabited

namespace SearchTerm

/-- The pattern that a field has to match. -/
def pattern (term : SearchTerm) : String := "%" ++ term.value ++ "%"

/-- Whether a record has a field that matches. -/
def evaluate (term : SearchTerm) (record : Record) : Bool :=
  term.fields.any fun field =>
    Filter.likeMatches (record.get field) term.pattern term.caseSensitive

/-- The reports on the items of the field list from a position on. -/
def fieldReports : (position : Nat) → List Value → List Report
  | _, [] => []
  | position, .text _ :: rest => fieldReports (position + 1) rest
  | position, other :: rest =>
      (Report.notText other).within [.index position] :: fieldReports (position + 1) rest

/-- The texts of a list of values. -/
def texts (items : List Value) : List String :=
  items.filterMap fun item =>
    match item with
    | .text text => some text
    | _ => none

/-- Checks the parts of a search term that are given by name. -/
def ofParts (parts : Record) : Except Error SearchTerm :=
  let value : Except Report String :=
    match parts.get? "value" with
    | none => .error (Report.missing (.object parts))
    | some (.text text) => .ok text
    | some other => .error (Report.notText other)
  let fields : Except (List Report) (List String) :=
    match parts.get? "fields" with
    | none => .error [Report.missing (.object parts)]
    | some (.list items) =>
        match fieldReports 0 items with
        | [] => .ok (texts items)
        | reports => .error reports
    | some other => .error [⟨"tuple_type", [], "Input should be a valid tuple", other⟩]
  let caseSensitive : Except Report Bool :=
    match parts.get? "case_sensitive" with
    | none => .ok true
    | some input => Report.readBoolean input
  match value, fields, caseSensitive with
  | .ok value, .ok fields, .ok caseSensitive => .ok ⟨value, fields, caseSensitive⟩
  | value, fields, caseSensitive =>
      let valueReports := match value with
        | .ok _ => []
        | .error report => [report.within [.name "value"]]
      let fieldReports := match fields with
        | .ok _ => []
        | .error reports => reports.map (Report.within [.name "fields"])
      let caseReports := match caseSensitive with
        | .ok _ => []
        | .error report => [report.within [.name "case_sensitive"]]
      .error (.validation (valueReports ++ fieldReports ++ caseReports))

end SearchTerm

end ResourceServer
