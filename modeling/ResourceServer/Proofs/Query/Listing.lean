import ResourceServer.Proofs.Batch.Single

/-!
# Queries that only list

A query that gives no filters, no search and no order asks for all rows of a resource by key.  What
else it says is read parameter by parameter, and there is nothing else when it only names a page.
-/

namespace ResourceServer

theorem Record.get?_set (record : Record) (name other : String) (value : Value) :
    (record.set name value).get? other = if other = name then some value else record.get? other :=
  Entries.lookup_set record name other value

theorem Record.get_of_get? {record : Record} {name : String} (missing : record.get? name = none) :
    record.get name = .null :=
  congrArg (Option.getD · Value.null) missing

theorem QueryParameters.ofRequest_listing {settings : Settings} {resource : Resource}
    {query : Record} (free : ∀ name ∈ ["filters", "search", "sort"], query.get? name = none) :
    ofRequest settings resource query = (do
      let pagination ← PaginationRequest.ofRequest settings.pagination query
      let columns ← readColumns resource query
      let aggregates ← readAggregates resource query
      let trashed ← TrashedScope.ofRequest resource query
      .ok { pagination, columns, aggregates, trashed }) := by
  have missing : ∀ name ∈ ["filters", "search", "sort"], query.get name = .null :=
    fun name isName => Record.get_of_get? (free name isName)
  simp only [List.forall_mem_cons] at missing
  obtain ⟨filters, search, sort, _⟩ := missing
  unfold ofRequest SearchTerm.ofRequest
  rw [filters, search, sort]
  rfl

theorem QueryParameters.ofRequest_paged {settings : Settings} {resource : Resource} {query : Record}
    {pagination : PaginationRequest}
    (free : ∀ name ∉ ["page", "limit"], query.get? name = none)
    (paged : PaginationRequest.ofRequest settings.pagination query = .ok pagination) :
    ofRequest settings resource query = .ok { pagination } := by
  have listing : ∀ name ∈ ["filters", "search", "sort"], query.get? name = none := by
    simp only [List.forall_mem_cons]
    exact ⟨free _ (by decide), free _ (by decide), free _ (by decide), nofun⟩
  have columns : readColumns resource query = .ok none := by
    rw [readColumns, Record.get_of_get? (free "fields" (by decide))]
    rfl
  have aggregates : readAggregates resource query = .ok [] := by
    rw [readAggregates, Record.get_of_get? (free "with_count" (by decide))]
    rfl
  have live : TrashedScope.ofRequest resource query = .ok .without := by
    rw [TrashedScope.ofRequest, free "only_trashed" (by decide), free "with_trashed" (by decide)]
    cases resource.softDeletes with
    | true => rfl
    | false => rfl
  rw [ofRequest_listing listing, paged, columns, aggregates, live]
  rfl

end ResourceServer
