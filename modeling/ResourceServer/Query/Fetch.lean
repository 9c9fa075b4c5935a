import ResourceServer.Query.Includes

/-!
# Queries for requests

Puts together what a request asks for: filters that the operation demands, the scope of trashed rows, the
filters and the search of the request, its relations, its order and its counts. When only some columns
are wanted, those that the relations are joined by are read as well.
-/

namespace ResourceServer

namespace QueryParameters

/-- The counts that are asked for, and those that rows are only sorted by. -/
def effectiveAggregates (parameters : QueryParameters) (resource : Resource) : List AggregateRequest :=
  resource.aggregates.foldl (fun aggregates name =>
    let candidate := AggregateRequest.mk name
    if (aggregates.map AggregateRequest.alias).contains candidate.alias then aggregates
    else if parameters.sorts.any (·.field == candidate.alias) then aggregates ++ [candidate]
    else aggregates) parameters.aggregates

end QueryParameters

/-- The column of the owner that a relation needs beside the key, if any. -/
def Relation.ownerColumn? (relation : Relation) : Option String :=
  match relation.kind with
  | .belongsTo => some relation.foreignKey
  | _ => relation.givenLocalKey?

/-- The columns to read when only some are wanted: the key, those that relations are joined by, and the
wanted ones. -/
def Resource.projection (resource : Resource) (columns : List String) (includes : List RelationRequest) :
    Except Error (List String) := do
  let names := distinctNames (includes.map fun request => request.segments.headD "")
  let relations ← names.mapM resource.relation
  .ok (distinctNames (resource.keyName :: relations.filterMap Relation.ownerColumn? ++ columns))

namespace QuerySpec

/-- The query that a request asks for, within the given scopes. -/
def ofParameters (resource : Resource) (parameters : QueryParameters) (requests : List RelationRequest)
    (scopes : List Filter.Node) : Except Error QuerySpec := do
  let confined := scopes.foldl whereNode { resource, trashed := parameters.trashed : QuerySpec }
  let filtered := parameters.filters.toList.foldl whereNode confined
  let spec := ((({ filtered with searchTerm := parameters.searchTerm }).withRelations requests).orderBy
    parameters.sorts).withAggregates (parameters.effectiveAggregates resource)
  match parameters.columns with
  | none => .ok spec
  | some columns => do
      let selected ← resource.projection columns spec.includes
      .ok (spec.select (some selected))

/-- The same query narrowed to some keys. -/
def ofKeys (resource : Resource) (parameters : QueryParameters) (requests : List RelationRequest)
    (scopes : List Filter.Node) (keys : List Value) : Except Error QuerySpec := do
  let spec ← ofParameters resource parameters requests scopes
  spec.whereIn resource.keyName keys

end QuerySpec

end ResourceServer
