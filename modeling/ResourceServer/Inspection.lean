import ResourceServer.Batch
import ResourceServer.Envelope
import ResourceServer.Settings

/-!
# Inspection

Filters, specifications, entities, pages and settings as plain values, for logs and for looking at what a
request was understood to ask for.
-/

namespace ResourceServer

namespace Value

/-- A list of texts. -/
def ofTexts (texts : List String) : Value := .list (texts.map .text)

/-- A set of texts in order. -/
def ofTextSet (texts : List String) : Value :=
  ofTexts ((distinctNames texts).mergeSort fun left right => left ≤ right)

/-- A value, or null. -/
def ofOption (value : Option Value) : Value := value.getD .null

end Value

namespace Filter.Node

mutual

/-- A filter tree as a value. -/
def toValue : Node → Value
  | .leaf comparison =>
      .object [("type", .text "leaf"), ("field", .text comparison.field),
        ("op", .text comparison.operator.word), ("value", comparison.operand),
        ("combinator", .text comparison.combinator.word)]
  | .group combinator children =>
      .object [("type", .text "group"), ("combinator", .text combinator.word),
        ("children", .list (childValues children))]

/-- Filter trees as values. -/
def childValues : List Node → List Value
  | [] => []
  | node :: rest => toValue node :: childValues rest

end

end Filter.Node

/-- A sort field as a value. -/
def SortDirective.toValue (directive : SortDirective) : Value :=
  .object [("field", .text directive.field), ("direction", .text directive.direction.word)]

/-- A requested relation as a value. -/
def RelationRequest.toValue (request : RelationRequest) : Value :=
  .object [("path", .text request.path), ("depth", .int request.depth),
    ("filters", .ofOption (request.filters.map Filter.Node.toValue)),
    ("sort", .list (request.sort.map SortDirective.toValue)),
    ("pagination", .ofOption (request.window.map fun window =>
      .object [("limit", .int window.limit), ("page", .int window.page)]))]

/-- Requested relations as a value, ordered by path. -/
def RelationRequest.listValue (requests : List RelationRequest) : Value :=
  .list ((mergeRequests requests).map toValue)

/-- A search term as a value. -/
def SearchTerm.toValue (term : SearchTerm) : Value :=
  .object [("value", .text term.value), ("fields", .ofTexts term.fields),
    ("case_sensitive", .bool term.caseSensitive), ("pattern", .text term.pattern)]

/-- A count as a value. -/
def AggregateRequest.toValue (aggregate : AggregateRequest) : Value :=
  .object [("relation", .text aggregate.relation), ("alias", .text aggregate.alias)]

/-- A page request as a value. -/
def PaginationRequest.toValue (pagination : PaginationRequest) : Value :=
  .object [("page", .int pagination.page), ("limit", .int pagination.limit),
    ("disabled", .bool pagination.disabled), ("offset", .int pagination.offset)]

/-- The query parameters of a request as a value. -/
def QueryParameters.toValue (parameters : QueryParameters) : Value :=
  .object [("filters", .ofOption (parameters.filters.map Filter.Node.toValue)),
    ("search", .ofOption (parameters.searchTerm.map SearchTerm.toValue)),
    ("sorts", .list (parameters.sorts.map SortDirective.toValue)),
    ("pagination", parameters.pagination.toValue),
    ("columns", .ofOption (parameters.columns.map .ofTexts)),
    ("aggregates", .list (parameters.aggregates.map AggregateRequest.toValue)),
    ("trashed", .text parameters.trashed.word)]

/-- A specification as a value. -/
def QuerySpec.toValue (spec : QuerySpec) : Value :=
  .object [("resource", .text spec.resource.name),
    ("wheres", .list (spec.wheres.map Filter.Node.toValue)),
    ("search", .ofOption (spec.searchTerm.map SearchTerm.toValue)),
    ("includes", .list (spec.includes.map RelationRequest.toValue)),
    ("sorts", .list (spec.sorts.map SortDirective.toValue)),
    ("aggregates", .list (spec.aggregates.map AggregateRequest.toValue)),
    ("aliases", .ofTextSet spec.aggregateAliases), ("trashed", .text spec.trashed.word),
    ("columns", .ofOption (spec.columns.map .ofTexts))]

mutual

/-- An entity with its loaded relations as a value. -/
def Entity.toValue : Entity → Value
  | .mk resource key attributes relations created =>
      .object [("resource", .text resource), ("key", key), ("attributes", .object attributes),
        ("relations", .object (relationValues relations)), ("created", .bool created)]

/-- Loaded relations as values. -/
def relationValues : List (String × Related) → List (String × Value)
  | [] => []
  | (name, related) :: rest => (name, related.inspected) :: relationValues rest

/-- What a relation leads to, as a value. -/
def Related.inspected : Related → Value
  | .absent => .null
  | .single entity => entity.toValue
  | .many entities => .list (inspectedEntities entities)

/-- Entities as values. -/
def inspectedEntities : List Entity → List Value
  | [] => []
  | entity :: rest => entity.toValue :: inspectedEntities rest

end

/-- A step along a relation path as a value. -/
def Hop.toValue (hop : Hop) : Value :=
  .object [("relation", .text hop.relation.name), ("kind", .text hop.relation.kind.word),
    ("many", .bool hop.relation.isMany), ("target", .text hop.target.name)]

/-- A resource with its columns, the fields that can be written and its key, as a value. -/
def Resource.toValue (resource : Resource) : Value :=
  .object [("name", .text resource.name), ("columns", .ofTexts resource.columns),
    ("fillable", .ofTexts resource.fillableFields), ("key", .text resource.keyName)]

/-- The figures of a page as members of an object. -/
def Page.members (page : Page) : Except Error Record := do
  let lastPage ← page.lastPage
  .ok [("total", .int page.total), ("page", .int page.page), ("per_page", .int page.perPage),
    ("last_page", .int lastPage), ("first_item", Value.ofInt? page.firstItem?),
    ("last_item", Value.ofInt? page.lastItem?)]

/-- Settings as a value. -/
def Settings.toValue (settings : Settings) : Value :=
  .object [("max_nested_depth", .int settings.maxNestedDepth),
    ("pagination", .object [("default_limit", .int settings.pagination.defaultLimit),
      ("disabled", .bool settings.pagination.disabled),
      ("max_limit", Value.ofInt? settings.pagination.maxLimit)]),
    ("search", .object [("case_sensitive", .bool settings.search.caseSensitive)])]

/-- The state of a batch as a hook sees it, with the entity that the hook is called for. -/
def BatchContext.toValue (context : BatchContext) (entity : Option Entity) : Value :=
  .object [("verb", .text context.verb.word), ("resource", .text context.resource.name),
    ("user", context.request.user), ("force", .bool context.force),
    ("attributes", .object context.attributes),
    ("relations", .ofTextSet (context.requested.map RelationRequest.path)),
    ("scopes", .list (context.scopes.map Filter.Node.toValue)),
    ("entity", .ofOption (entity.map Entity.toValue)),
    ("trashed", .text context.parameters.trashed.word)]

/-- The outcome of a batch as a value. -/
def BatchOutcome.toValue (outcome : BatchOutcome) : Value :=
  .object [("entities", .list (outcome.entities.map Entity.toValue)),
    ("responded", .bool outcome.response.isSome), ("response", outcome.response.getD .null),
    ("requested", .ofTextSet (outcome.requested.map RelationRequest.path))]

namespace Report

/-- One step on the way to a part of an input, as a value. -/
def placeValue : Place → Value
  | .name name => .text name
  | .index position => .int position

/-- A report as an object. -/
def toRecord (report : Report) : Record :=
  [("type", .text report.kind), ("loc", .list (report.place.map placeValue)),
    ("msg", .text report.message)]

/-- A report as an object with the offending part of the input. -/
def toRecordWithInput (report : Report) : Record := report.toRecord ++ [("input", report.input)]

end Report

end ResourceServer
