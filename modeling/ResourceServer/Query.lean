import ResourceServer.Schema.Registry
import ResourceServer.Filter.Search
import ResourceServer.Query.Window

/-!
# Query specifications

A specification says which rows of a resource are wanted: filters that all have to hold, a search term,
the scope of trashed rows, relations to load, the order, counts of related rows and the columns. It is
built up by pure steps and handed to a store once.
-/

namespace ResourceServer

/-- A direction of sorting. -/
inductive SortDirection
  | ascending
  | descending
deriving DecidableEq, Repr, Inhabited

namespace SortDirection

/-- The word for a direction. -/
def word : SortDirection → String
  | .ascending => "asc"
  | .descending => "desc"

/-- The direction that a word names. -/
def ofWord? (word : String) : Option SortDirection :=
  if word = "asc" then some .ascending else if word = "desc" then some .descending else none

end SortDirection

/-- One field of a sort order. -/
structure SortDirective where
  field : String
  direction : SortDirection := .ascending
deriving DecidableEq, Repr, Inhabited

/-- Which soft-deleted rows a query sees. -/
inductive TrashedScope
  | without
  | included
  | only
deriving DecidableEq, Repr, Inhabited

/-- The word for a scope of trashed rows. -/
def TrashedScope.word : TrashedScope → String
  | .without => "exclude"
  | .included => "include"
  | .only => "only"

/-- A page of the related entities of each parent. -/
structure RelationWindow where
  limit : Int
  page : Int := 1
deriving DecidableEq, Repr, Inhabited

/-- The items of the page. -/
def RelationWindow.apply {α : Type} (window : RelationWindow) (items : List α) : List α :=
  let start := (window.page - 1) * window.limit
  sliceBetween items start (start + window.limit)

/-- A relation to load, named by its path, with conditions on the related entities. -/
structure RelationRequest where
  path : String
  filters : Option Filter.Node := none
  sort : List SortDirective := []
  window : Option RelationWindow := none
deriving Repr, Inhabited

namespace RelationRequest

/-- The relation names along the path. -/
def segments (request : RelationRequest) : List String := pathSegments request.path

/-- Number of steps below the first one. -/
def depth (request : RelationRequest) : Nat := request.segments.length - 1

end RelationRequest

/-- The requests with the later one of each path, ordered by path. -/
def mergeRequests (requests : List RelationRequest) : List RelationRequest :=
  let merged := requests.foldl (fun kept request =>
    if kept.any (·.path == request.path) then
      kept.map fun other => if other.path == request.path then request else other
    else kept ++ [request]) []
  merged.mergeSort fun left right => left.path ≤ right.path

/-- A count of related rows. -/
structure AggregateRequest where
  relation : String
deriving DecidableEq, Repr, Inhabited

/-- The name under which a count appears among the attributes. -/
def AggregateRequest.alias (aggregate : AggregateRequest) : String := aggregate.relation ++ "_count"

/-- The page of a listing that a request asks for. A disabled one asks for everything at once. -/
structure PaginationRequest where
  page : Int := 1
  limit : Int := 15
  disabled : Bool := false
deriving DecidableEq, Repr, Inhabited

/-- The position of the first item of the page. -/
def PaginationRequest.offset (pagination : PaginationRequest) : Int :=
  (pagination.page - 1) * pagination.limit

/-- What is wanted from one resource. -/
structure QuerySpec where
  resource : Resource
  wheres : List Filter.Node := []
  searchTerm : Option SearchTerm := none
  includes : List RelationRequest := []
  sorts : List SortDirective := []
  aggregates : List AggregateRequest := []
  trashed : TrashedScope := .without
  columns : Option (List String) := none
deriving Repr, Inhabited

/-- Keeps the first of equal names. -/
def distinctNames (names : List String) : List String :=
  names.foldl (fun kept name => if kept.contains name then kept else kept ++ [name]) []

namespace QuerySpec

/-- Adds a filter that has to hold. -/
def whereNode (spec : QuerySpec) (node : Filter.Node) : QuerySpec :=
  { spec with wheres := spec.wheres ++ [node] }

/-- Narrows the query to rows whose field is one of some values. -/
def whereIn (spec : QuerySpec) (field : String) (values : List Value) : Except Error QuerySpec := do
  let leaf ← Filter.Leaf.make field .isIn (.list values)
  .ok (spec.whereNode (.leaf leaf))

/-- Sets the search term. -/
def search (spec : QuerySpec) (term : Option SearchTerm) : QuerySpec :=
  { spec with searchTerm := term }

/-- Adds relations to load. -/
def withRelations (spec : QuerySpec) (requests : List RelationRequest) : QuerySpec :=
  { spec with includes := mergeRequests (spec.includes ++ requests) }

/-- Appends sort fields. -/
def orderBy (spec : QuerySpec) (directives : List SortDirective) : QuerySpec :=
  { spec with sorts := spec.sorts ++ directives }

/-- Adds counts of related rows. -/
def withAggregates (spec : QuerySpec) (aggregates : List AggregateRequest) : QuerySpec :=
  { spec with aggregates := spec.aggregates ++ aggregates }

/-- Sets the scope of trashed rows. -/
def withTrashed (spec : QuerySpec) (scope : TrashedScope) : QuerySpec := { spec with trashed := scope }

/-- Restricts the columns. -/
def select (spec : QuerySpec) (columns : Option (List String)) : QuerySpec :=
  { spec with columns := columns.map distinctNames }

/-- The names under which the counts appear. -/
def aggregateAliases (spec : QuerySpec) : List String := spec.aggregates.map AggregateRequest.alias

/-- The columns that are read; the key is always one of them. -/
def selectedColumns (spec : QuerySpec) : List String :=
  match spec.columns with
  | none => spec.resource.columns
  | some columns => distinctNames (spec.resource.keyName :: columns)

end QuerySpec

end ResourceServer
