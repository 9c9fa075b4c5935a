import ResourceServer.Filter.Reader
import ResourceServer.Query

/-!
# Query parameters

Everything about a query that a request can say besides the relations to load: filters, a search term,
the order, the page, the columns, counts of related rows and whether trashed rows are seen. Fields and
relations that a resource does not list are refused by name.
-/

namespace ResourceServer

/-- The query parameters of one request. -/
structure QueryParameters where
  filters : Option Filter.Node := none
  searchTerm : Option SearchTerm := none
  sorts : List SortDirective := []
  pagination : PaginationRequest := {}
  columns : Option (List String) := none
  aggregates : List AggregateRequest := []
  trashed : TrashedScope := .without
deriving Repr, Inhabited

/-- Reads the text to search for; an empty one means no search. -/
def SearchTerm.ofValue (resource : Resource) (caseSensitive : Bool) (value : Value) :
    Except Error (Option SearchTerm) :=
  let found (text : String) : Except Error (Option SearchTerm) :=
    if resource.searchable.isEmpty then .error (.malformed (.notSearchable resource.name))
    else .ok (some ⟨text, resource.searchable, caseSensitive⟩)
  match value with
  | .null => .ok none
  | .text text => if text.isEmpty then .ok none else found text
  | .int _ => found value.plain
  | .float _ => found value.plain
  | _ => .error (.malformed (.searchValue value))

/-- Reads `search`: a text, or an object that may also say whether case matters. -/
def SearchTerm.ofRequest (settings : Settings) (resource : Resource) (parameters : Record) :
    Except Error (Option SearchTerm) :=
  match parameters.get "search" with
  | .object members => do
      let caseSensitive ←
        match Record.get? members "case_sensitive" with
        | some flag => Parameter.flag "search.case_sensitive" flag
        | none => .ok settings.search.caseSensitive
      SearchTerm.ofValue resource caseSensitive (Record.get members "value")
  | value => SearchTerm.ofValue resource settings.search.caseSensitive value

namespace SortDirective

/-- The fields that a resource can be sorted by: its sortable ones and its counts. -/
def allowedFields (resource : Resource) : List String :=
  resource.sortable ++ resource.aggregates.map fun name => (AggregateRequest.mk name).alias

/-- A directive with a direction in letters of any case. -/
def make (resource : Resource) (field : String) (direction : Value) : Except Error SortDirective :=
  match SortDirection.ofWord? (Text.lowerWord direction.plain) with
  | none => .error (.malformed (.sortDirection direction))
  | some direction =>
      if (allowedFields resource).contains field then .ok ⟨field, direction⟩
      else .error (.fieldNotAllowed field resource.name .sortable)

/-- Reads a word of a sort text: a minus sign in front asks for descending order. -/
def ofWord (resource : Resource) (word : String) : Except Error SortDirective :=
  let field := String.ofList (word.toList.dropWhile (· = '-'))
  let direction := if word.toList.head? = some '-' then SortDirection.descending else .ascending
  make resource field (.text direction.word)

/-- Reads an entry of a sort list. -/
def ofEntry (resource : Resource) (entry : Value) : Except Error SortDirective :=
  match entry with
  | .object members =>
      match Record.get members "field" with
      | .text field =>
          make resource field ((Record.get? members "direction").getD (.text SortDirection.ascending.word))
      | _ => .error (.malformed (.sortEntry entry))
  | _ => .error (.malformed (.sortEntry entry))

/-- Whether a text is the encoding of a list rather than a list of words. -/
def isEncodedList (text : String) : Bool :=
  (Text.trimLeft text.toList).head? = some '['

/-- Reads a sort order: words with commas between them, a list of entries, or its encoding. -/
def ofValue (resource : Resource) (raw : Value) : Except Error (List SortDirective) := do
  let decoded ←
    match raw with
    | .text text =>
        if isEncodedList text then
          Parameter.decoded raw fun detail => .malformed (.notJson "sort" detail)
        else .ok raw
    | other => .ok other
  match decoded with
  | .null => .ok []
  | .text text => do
      let words ← Parameter.words "sort" (.text text)
      words.mapM (ofWord resource)
  | .list entries => entries.mapM (ofEntry resource)
  | _ => .error (.malformed .sortShape)

end SortDirective

namespace PaginationRequest

/-- Reads `page` and `limit`. A limit of zero, like settings without pagination, asks for
everything. -/
def ofRequest (settings : PaginationSettings) (parameters : Record) :
    Except Error PaginationRequest := do
  let page ← Parameter.integer "page" 1 ((parameters.get? "page").getD (.int 1))
  let limit ← Parameter.integer "limit" 0
    ((parameters.get? "limit").getD (.int settings.defaultLimit))
  if settings.disabled || limit = 0 then .ok ⟨1, 0, true⟩
  else
    match settings.maxLimit with
    | some most => .ok ⟨page, min limit most, false⟩
    | none => .ok ⟨page, limit, false⟩

end PaginationRequest

/-- Reads `fields`, the columns that are wanted; none means all. -/
def readColumns (resource : Resource) (parameters : Record) : Except Error (Option (List String)) := do
  let fields ← Parameter.words "fields" (parameters.get "fields")
  match fields.find? fun field => !resource.columns.contains field with
  | some field => .error (.fieldNotAllowed field resource.name .selectable)
  | none => .ok (if fields.isEmpty then none else some fields)

/-- Reads `with_count`, the relations to count. -/
def readAggregates (resource : Resource) (parameters : Record) :
    Except Error (List AggregateRequest) := do
  let relations ← Parameter.words "with_count" (parameters.get "with_count")
  match relations.find? fun relation => !resource.aggregates.contains relation with
  | some relation => .error (.relationNotAllowed relation resource.name)
  | none => .ok ((distinctNames relations).map AggregateRequest.mk)

/-- Reads which trashed rows are seen: `only_trashed` wins over `with_trashed`. -/
def TrashedScope.ofRequest (resource : Resource) (parameters : Record) : Except Error TrashedScope := do
  if !resource.softDeletes then .ok .without
  else if ← Parameter.flag "only_trashed" ((parameters.get? "only_trashed").getD (.bool false)) then
    .ok .only
  else if ← Parameter.flag "with_trashed" ((parameters.get? "with_trashed").getD (.bool false)) then
    .ok .included
  else .ok .without

namespace QueryParameters

/-- Reads all query parameters. -/
def ofRequest (settings : Settings) (resource : Resource) (parameters : Record) :
    Except Error QueryParameters := do
  let filters ← Filter.Node.ofRequest settings resource (parameters.get "filters")
  let searchTerm ← SearchTerm.ofRequest settings resource parameters
  let sorts ← SortDirective.ofValue resource (parameters.get "sort")
  let pagination ← PaginationRequest.ofRequest settings.pagination parameters
  let columns ← readColumns resource parameters
  let aggregates ← readAggregates resource parameters
  let trashed ← TrashedScope.ofRequest resource parameters
  .ok { filters, searchTerm, sorts, pagination, columns, aggregates, trashed }

end QueryParameters

end ResourceServer
