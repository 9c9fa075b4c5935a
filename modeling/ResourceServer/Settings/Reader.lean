import ResourceServer.Report.Reader
import ResourceServer.Settings
import ResourceServer.Settings.Document

/-!
# Reading settings

Settings are read from the entries of a mapping. Every setting that is missing keeps its default, every
fault is reported, and an entry that is no setting is a fault too.
-/

namespace ResourceServer

/-- What reading a part of the settings yields: a value to go on with, and what is wrong. -/
structure Reading (α : Type) where
  value : α
  reports : List Report := []

namespace Reading

/-- Reads an entry of a mapping, or keeps a default. -/
def entry {α : Type} (entries : List (Scalar × Document)) (name : String) (fallback : α)
    (read : Document → Except (List Report) α) : Reading α :=
  match Document.find? name entries with
  | none => ⟨fallback, []⟩
  | some document =>
      match read document with
      | .ok value => ⟨value, []⟩
      | .error reports => ⟨fallback, reports.map (Report.within [.name name])⟩

/-- The place of an entry with a key that is no text; a number that fits into a word stands for itself. -/
def placeOf : Scalar → Place
  | .value (.int number) =>
      if -0x8000000000000000 ≤ number ∧ number < 0x8000000000000000 then .index number
      else .name (toString number)
  | .value (.bool flag) => .index (if flag then 1 else 0)
  | key => .name key.describe

/-- The value that a report shows for a document. -/
def shown : Document → Value
  | .scalar scalar => scalar.shown
  | _ => .null

/-- The reports on entries that are no settings. -/
def unknownEntries (names : List String) (entries : List (Scalar × Document)) : List Report :=
  entries.filterMap fun (key, document) =>
    match key with
    | .value (.text name) =>
        if names.contains name then none
        else some ⟨"extra_forbidden", [.name name], "Extra inputs are not permitted", shown document⟩
    | key => some ⟨"invalid_key", [placeOf key], "Keys should be strings", key.shown⟩

/-- Reads a section of the settings. -/
def entriesOfSection {α : Type} (kind : String) (read : List (Scalar × Document) → Reading α)
    (document : Document) : Except (List Report) α :=
  match document with
  | .mapping entries =>
      match (read entries).reports with
      | [] => .ok (read entries).value
      | reports => .error reports
  | other =>
      .error [⟨"model_type", [], s!"Input should be a valid dictionary or instance of {kind}",
        shown other⟩]

/-- Reads a document that has to be a scalar; bytes are read as the text they encode, and one that they do not
encode as a text that fits nothing. -/
def scalarWith {α : Type} (read : Value → Except Report α) (wrongKind : Value → Report)
    (document : Document) : Except (List Report) α :=
  let result :=
    match document with
    | .scalar (.value value) => read value
    | .scalar (.bytes bytes) => read (.text ((String.fromUTF8? ⟨bytes.toArray⟩).getD "\ufffd"))
    | _ => .error (wrongKind (shown document))
  result.mapError fun report => [report]

/-- Reads a boolean. -/
def boolean : Document → Except (List Report) Bool := scalarWith Report.readBoolean Report.notBoolean

/-- Reads a whole number that is not below a minimum. -/
def integerFrom (minimum : Int) : Document → Except (List Report) Int :=
  scalarWith (Report.readIntegerFrom minimum) Report.notInteger

/-- Reads a whole number that is not below a minimum, or null. -/
def integerOrNull (minimum : Int) (document : Document) : Except (List Report) (Option Int) :=
  match document with
  | .scalar (.value .null) => .ok none
  | _ => (integerFrom minimum document).map some

end Reading

/-- Reads the defaults for listings. -/
def PaginationSettings.read (entries : List (Scalar × Document)) : Reading PaginationSettings :=
  let defaultLimit := Reading.entry entries "default_limit" 15 (Reading.integerFrom 1)
  let disabled := Reading.entry entries "disabled" false Reading.boolean
  let maxLimit := Reading.entry entries "max_limit" none (Reading.integerOrNull 1)
  ⟨⟨defaultLimit.value, disabled.value, maxLimit.value⟩,
    defaultLimit.reports ++ disabled.reports ++ maxLimit.reports
      ++ Reading.unknownEntries ["default_limit", "disabled", "max_limit"] entries⟩

/-- Reads how search terms are matched. -/
def SearchSettings.read (entries : List (Scalar × Document)) : Reading SearchSettings :=
  let caseSensitive := Reading.entry entries "case_sensitive" true Reading.boolean
  ⟨⟨caseSensitive.value⟩,
    caseSensitive.reports ++ Reading.unknownEntries ["case_sensitive"] entries⟩

namespace Settings

/-- Reads settings, with everything that is wrong with them. -/
def read (entries : List (Scalar × Document)) : Reading Settings :=
  let depth := Reading.entry entries "max_nested_depth" 1 (Reading.integerFrom 0)
  let pagination := Reading.entry entries "pagination" {}
    (Reading.entriesOfSection "PaginationConfig" PaginationSettings.read)
  let search := Reading.entry entries "search" {}
    (Reading.entriesOfSection "SearchConfig" SearchSettings.read)
  ⟨⟨depth.value.toNat, pagination.value, search.value⟩,
    depth.reports ++ pagination.reports ++ search.reports
      ++ Reading.unknownEntries ["max_nested_depth", "pagination", "search"] entries⟩

/-- The settings in a mapping. -/
def ofEntries (entries : List (Scalar × Document)) : Except Error Settings :=
  match (read entries).reports with
  | [] => .ok (read entries).value
  | reports => .error (.configuration (.invalidSettings reports))

/-- The settings in a value. -/
def ofValue (value : Value) : Except Error Settings := do
  let entries ← Document.entriesOf value
  ofEntries entries

end Settings

end ResourceServer
