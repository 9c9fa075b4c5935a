import ResourceServer.Proofs.Http.Query
import ResourceServer.Proofs.Query.Faults
import ResourceServer.Proofs.Viewing
import ResourceServer.Proofs.Visibility.Rows

/-!
# Following links

A page of a listing is linked to other pages by addresses that consist of the path of the listing
and a page number.  What a link leads to has the usual length, and lists all rows in scope by key.
So the links of a listing that says nothing else about its rows lead to its own pages, with the
total, the length and the rows that they have there.
-/

namespace ResourceServer

/-! ## Rows with their counts -/

namespace Contents

variable {registry : Registry} {contents : Contents} {spec plain : QuerySpec}

theorem withCounts_agree {row counted : Record}
    (done : withCounts registry contents spec row = .ok counted) :
    Record.AgreeOn (· ∉ spec.aggregateAliases) row counted := by
  refine (foldlM_eq_ok (Record.AgreeOn (· ∉ spec.aggregateAliases) row) (.refl row) ?_ done).1
  intro aggregate isAggregate result next agree counts name uncounted
  obtain ⟨count, _, counts⟩ := bind_eq_ok.mp counts
  cases counts
  have other : name ≠ aggregate.alias := by
    rintro rfl
    exact uncounted (List.mem_map_of_mem isAggregate)
  rw [Record.get?_set, if_neg other]
  exact agree name uncounted

theorem selectRows_uncounted {rows selected : List Record}
    (matching : ∀ row, rowMatches plain row = rowMatches spec row)
    (uncounted : plain.aggregates = [])
    (done : selectRows registry contents spec rows = .ok selected) :
    ∃ bare, selectRows registry contents plain rows = .ok bare ∧
      List.Forall₂ (Record.AgreeOn (· ∉ spec.aggregateAliases)) selected bare := by
  induction rows generalizing selected with
  | nil =>
      cases done
      exact ⟨[], rfl, .nil⟩
  | cons row rest induction =>
      obtain ⟨unmatched, done⟩ | ⟨matched, counted, others, counts, goesOn, rfl⟩ :=
        selectRows_cons_eq_ok.mp done
      · obtain ⟨bare, selection, agree⟩ := induction done
        rw [← matching] at unmatched
        exact ⟨bare, selectRows_cons_eq_ok.mpr (.inl ⟨unmatched, selection⟩), agree⟩
      · obtain ⟨bare, selection, agree⟩ := induction goesOn
        have noCounts : withCounts registry contents plain row = .ok row := by
          rw [withCounts, uncounted]
          rfl
        rw [← matching] at matched
        refine ⟨row :: bare, selectRows_cons_eq_ok.mpr
          (.inr ⟨matched, row, bare, noCounts, selection, rfl⟩), .cons ?_ agree⟩
        exact fun name isOther => (withCounts_agree counts name isOther).symm

/-- The rows of a listing: those that match, with their counts, in order. -/
def Lists (registry : Registry) (contents : Contents) (spec : QuerySpec) (rows : List Record) :
    Prop :=
  ∃ selected byKey,
    selectRows registry contents spec (contents.table spec.resource.name).rows = .ok selected ∧
    Record.sortBy spec.resource.keyName .ascending selected = .ok byKey ∧
    Record.sortByAll spec.sorts byKey = .ok rows

theorem Lists.unique {rows others : List Record} (lists : Lists registry contents spec rows)
    (listsOthers : Lists registry contents spec others) : rows = others := by
  obtain ⟨_, _, selection, sorting, resorting⟩ := lists
  obtain ⟨_, _, otherSelection, otherSorting, otherResorting⟩ := listsOthers
  cases selection.symm.trans otherSelection
  cases sorting.symm.trans otherSorting
  cases resorting.symm.trans otherResorting
  rfl

/-- The rows of a listing by key are those of a listing without its counts. -/
theorem Lists.bare {rows : List Record}
    (matching : ∀ row, rowMatches plain row = rowMatches spec row)
    (sameResource : plain.resource = spec.resource) (uncounted : plain.aggregates = [])
    (unsorted : plain.sorts = []) (byKey : spec.sorts = [])
    (keyed : spec.resource.keyName ∉ spec.aggregateAliases)
    (lists : Lists registry contents spec rows) :
    ∃ bare, Lists registry contents plain bare ∧
      List.Forall₂ (Record.AgreeOn (· ∉ spec.aggregateAliases)) rows bare := by
  obtain ⟨selected, sorted, selection, sorting, resorting⟩ := lists
  rw [byKey] at resorting
  cases resorting
  obtain ⟨bare, bareSelection, agree⟩ := selectRows_uncounted matching uncounted selection
  -- Counts are not keys, so rows with and without them are sorted alike.
  have sortsAlike : Corresponds (List.Forall₂ (Record.AgreeOn (· ∉ spec.aggregateAliases)))
      (Record.sortBy spec.resource.keyName .ascending selected)
      (Record.sortBy spec.resource.keyName .ascending bare) :=
    Record.sortBy_corresponds (fun _ _ agree => agree.get keyed) .ascending agree
  rw [sorting] at sortsAlike
  generalize bareSorting : Record.sortBy spec.resource.keyName .ascending bare = result
    at sortsAlike
  cases sortsAlike with
  | @ok _ bareSorted agree =>
      refine ⟨bareSorted, ⟨bare, bareSorted, ?_, ?_, ?_⟩, agree⟩
      · rw [sameResource]
        exact bareSelection
      · rw [sameResource]
        exact bareSorting
      · rw [unsorted]
        rfl

end Contents

/-- A page shows a window of rows: one item for each row of it, in their order and with the same
values in the given columns. -/
structure Page.ShowsWindow (page : Page) (columns : List String) (rows : List Record)
    (number perPage : Int) : Prop where
  numbered : page.page = number
  sized : page.perPage = perPage
  counted : page.total = rows.length
  shown : List.Forall₂
    (fun row entity => ∀ column ∈ columns, Entity.get entity column = Record.get row column)
    (Contents.window (some ((number - 1) * perPage)) (some perPage) rows) page.items

theorem Page.ShowsWindow.ofAgree {page : Page} {columns kept : List String}
    {fields : String → Prop} {rows others : List Record} {number perPage : Int}
    (shows : page.ShowsWindow columns others number perPage)
    (agree : List.Forall₂ (Record.AgreeOn fields) rows others)
    (areFields : ∀ column ∈ kept, column ∈ columns ∧ fields column) :
    page.ShowsWindow kept rows number perPage := by
  refine ⟨shows.numbered, shows.sized, shows.counted.trans ?_, ?_⟩
  · rw [agree.length_eq]
  · have windows := Contents.forall₂_window agree (some ((number - 1) * perPage)) (some perPage)
    obtain ⟨pairs, isRows, isOthers⟩ := exists_pairs windows
    have shown := shows.shown
    rw [← isOthers, List.forall₂_map_left_iff] at shown
    rw [← isRows, List.forall₂_map_left_iff]
    refine shown.imp fun pair entity same column isKept => ?_
    obtain ⟨isColumn, isField⟩ := areFields column isKept
    exact (same column isColumn).trans (pair.property.get isField).symm

namespace Store

variable {τ : Type} {registry : Registry} {spec plain : QuerySpec} {memory : Memory} {side : τ}
variable {number perPage : Int} {page : Page} {rows : List Record}

theorem Loads.shown {resource : Resource} {names columns : List String} {items : List Entity}
    (read : columns ⊆ names) (loads : Loads resource (rows.map (Record.project · names)) items) :
    List.Forall₂ (fun row entity => ∀ column ∈ columns, Entity.get entity column =
      Record.get row column) rows items := by
  have each : List.Forall₂ Eq (rows.map fun row => entityOf resource (Record.project row names))
      (items.map Entity.bare) := by
    rw [List.forall₂_eq_eq_eq, loads.2, List.map_map]
    rfl
  rw [List.forall₂_map_left_iff, List.forall₂_map_right_iff] at each
  refine each.imp fun row entity same column isColumn => ?_
  rw [← Record.get_project (read isColumn)]
  cases entity
  exact (congrArg (Entity.get · column) same).symm

/-- A page that is fetched shows its window of the listing. -/
theorem paginate_shows {after : Memory × τ}
    (done : (paginate registry spec number perPage : Action (Memory × τ) _).perform
      (memory, side) = (.ok page, after)) :
    after = (memory, side) ∧ ∃ rows, Contents.Lists registry memory.contents spec rows ∧
      (∀ row ∈ rows, Record.has row spec.resource.keyName = true) ∧
        page.ShowsWindow spec.selectedColumns rows number perPage := by
  obtain ⟨total, middle, counted, done⟩ := Action.perform_bind_eq_ok.mp done
  rw [Memory.perform_count, Prod.mk.injEq] at counted
  obtain ⟨counted, rfl⟩ := counted
  obtain ⟨items, last, loaded, rest⟩ := Action.perform_bind_eq_ok.mp
    (show ((fetchRows registry spec (some ((number - 1) * perPage)) (some perPage) >>=
      hydrate registry spec) >>= fun items => pure ⟨items, total, number, perPage⟩).perform
        (memory, side) = (.ok page, after) by rw [bind_assoc]; exact done)
  cases rest
  obtain ⟨rfl, shown, fetched, loads⟩ := fetch_hydrate_eq_ok loaded
  obtain ⟨selected, byKey, sorted, selection, complete, keyed, sorting, rfl⟩ :=
    Contents.fetchRows_eq_ok.mp fetched
  have permutation := (Record.sortByAll_perm sorting).trans (Record.sortBy_perm keyed)
  refine ⟨rfl, sorted, ⟨selected, byKey, selection, keyed, sorting⟩, ?_, rfl, rfl, ?_, ?_⟩
  · exact fun row member => complete row (permutation.subset member)
  · rw [Contents.countRows_of_selectRows selection] at counted
    cases counted
    exact congrArg Int.ofNat permutation.length_eq.symm
  · refine Loads.shown ?_ loads
    intro column isColumn
    exact mem_distinctNames.mpr (List.mem_append_left _ isColumn)

/-- Without relations to load, rows that are read with their keys become entities. -/
theorem hydrate_yields_flat (included : spec.includes = [])
    (keyRead : spec.resource.keyName ∈ spec.selectedColumns) (rows : List Record) :
    ∃ items, (hydrate registry spec
      (rows.map (Record.project · (Contents.resultNames spec)))).Yields (memory, side) items := by
  have flat : includeDepth spec = 0 := by
    rw [includeDepth, included]
    rfl
  have keyed : ∀ row ∈ rows.map (Record.project · (Contents.resultNames spec)),
      Record.has row spec.resource.keyName = true := by
    intro row isRow
    obtain ⟨stored, _, rfl⟩ := List.mem_map.mp isRow
    exact Record.has_project.mpr (mem_distinctNames.mpr (List.mem_append_left _ keyRead))
  rw [hydrate, flat]
  exact ⟨_, Action.yields_ofExcept.mpr (entitiesOf_eq_ok.mpr ⟨keyed, rfl⟩)⟩

/-- A listing without relations has a page of every number. -/
theorem paginate_yields_window (included : spec.includes = [])
    (keyRead : spec.resource.keyName ∈ spec.selectedColumns)
    (complete : ∀ row ∈ rows, Record.has row spec.resource.keyName = true)
    (lists : Contents.Lists registry memory.contents spec rows) (number perPage : Int) :
    ∃ page, (paginate registry spec number perPage).Yields (memory, side) page ∧
      page.ShowsWindow spec.selectedColumns rows number perPage := by
  obtain ⟨selected, byKey, selection, keyed, sorting⟩ := lists
  have permutation := (Record.sortByAll_perm sorting).trans (Record.sortBy_perm keyed)
  have isComplete : ∀ row ∈ selected, Record.has row spec.resource.keyName = true :=
    fun row member => complete row (permutation.symm.subset member)
  have fetched : memory.contents.fetchRows registry spec (some ((number - 1) * perPage))
      (some perPage) = .ok _ :=
    Contents.fetchRows_eq_ok.mpr
      ⟨selected, byKey, rows, selection, isComplete, keyed, sorting, rfl⟩
  have counted : (count registry spec : Action (Memory × τ) _).Yields (memory, side)
      selected.length := by
    rw [Action.Yields, Memory.perform_count, Contents.countRows_of_selectRows selection]
    rfl
  obtain ⟨items, hydrated⟩ := hydrate_yields_flat included keyRead
    (Contents.window (some ((number - 1) * perPage)) (some perPage) rows)
  have done : (paginate registry spec number perPage).Yields (memory, side)
      ⟨items, selected.length, number, perPage⟩ :=
    counted.bind (.bind (Memory.yields_fetchRows.mpr fetched) (.bind hydrated rfl))
  refine ⟨_, done, ?_⟩
  obtain ⟨_, others, listsAgain, _, shows⟩ := paginate_shows done
  rw [Contents.Lists.unique ⟨selected, byKey, selection, keyed, sorting⟩ listsAgain]
  exact shows

end Store

/-! ## Requests by links -/

namespace Request

/-- The request that follows a link: the path and the query are those of the link. -/
def follow (request : Request) (link : String) : Request :=
  let (path, query) := Http.splitAtFirst '?' link
  { path, query := Http.queryRecord (Http.readQuery (query.getD "")), user := request.user }

theorem follow_pageUrl {request : Request} {number : Nat} (path : '?' ∉ request.path.toList) :
    request.follow (pageUrl request.path number) =
      { path := request.path, query := [("page", .text number.repr)], user := request.user } := by
  have written : pageUrl request.path number = String.ofList (request.path.toList ++
      '?' :: ("page".toList ++ '=' :: number.repr.toList)) := by
    rw [← String.toList_inj, String.toList_ofList]
    change (request.path ++ "?page=" ++ number.repr).toList = _
    rw [String.toList_append, String.toList_append, List.append_assoc]
    rfl
  rw [follow, written, Http.splitAtFirst_append path, String.ofList_toList]
  dsimp only
  rw [Option.getD_some, Http.readQuery_page]
  rfl

end Request

/-- A query that says nothing about the rows of a listing that a link does not say: it asks for a
page of the usual length, of all rows that are not trashed, by key. -/
structure QueryParameters.IsPlain (parameters : QueryParameters) (settings : PaginationSettings)
    (resource : Resource) : Prop where
  unfiltered : parameters.filters = none
  unsearched : parameters.searchTerm = none
  unsorted : parameters.sorts = []
  untrashed : parameters.trashed = .without
  usual : PaginationRequest.ofRequest settings [] = .ok ⟨1, parameters.pagination.limit, false⟩
  uncounted : resource.keyName ∉ parameters.aggregates.map AggregateRequest.alias

section Links

variable {settings : Settings} {resource : Resource} {number : Nat} {limit : Int}

theorem QueryParameters.one_le_page {query : Record} {parameters : QueryParameters}
    (read : ofRequest settings resource query = .ok parameters) :
    1 ≤ parameters.pagination.page := by
  obtain ⟨_, _, read⟩ := bind_eq_ok.mp read
  obtain ⟨_, _, read⟩ := bind_eq_ok.mp read
  obtain ⟨_, _, read⟩ := bind_eq_ok.mp read
  obtain ⟨pagination, isPagination, read⟩ := bind_eq_ok.mp read
  obtain ⟨_, _, read⟩ := bind_eq_ok.mp read
  obtain ⟨_, _, read⟩ := bind_eq_ok.mp read
  obtain ⟨_, _, read⟩ := bind_eq_ok.mp read
  cases read
  obtain ⟨page, isPage, isPagination⟩ := bind_eq_ok.mp isPagination
  obtain ⟨limit, _, isPagination⟩ := bind_eq_ok.mp isPagination
  have positive := Parameter.le_of_integer_eq_ok isPage
  split at isPagination
  · cases isPagination
    exact Int.le_refl 1
  · split at isPagination
    · cases isPagination
      exact positive
    · cases isPagination
      exact positive

theorem PaginationRequest.ofRequest_page {pagination : PaginationSettings} (positive : 1 ≤ number)
    (short : number < 10 ^ Numeral.digitLimit)
    (usual : ofRequest pagination [] = .ok ⟨1, limit, false⟩) :
    ofRequest pagination [("page", .text number.repr)] = .ok ⟨number, limit, false⟩ := by
  have given : Record.get? [("page", .text number.repr)] "page" = some (.text number.repr) := rfl
  have missing : Record.get? [("page", .text number.repr)] "limit" = none := rfl
  obtain ⟨_, first, usual⟩ := bind_eq_ok.mp usual
  cases first
  obtain ⟨most, isLimit, usual⟩ := bind_eq_ok.mp usual
  rw [ofRequest, given, missing]
  refine bind_eq_ok.mpr ⟨number, Parameter.integer_repr "page" positive short, ?_⟩
  refine bind_eq_ok.mpr ⟨most, isLimit, ?_⟩
  split at usual
  · cases usual
  · rename_i paginated
    rw [if_neg paginated]
    split at usual
    · cases usual
      rfl
    · cases usual
      rfl

theorem QueryParameters.ofRequest_page (positive : 1 ≤ number)
    (short : number < 10 ^ Numeral.digitLimit)
    (usual : PaginationRequest.ofRequest settings.pagination [] = .ok ⟨1, limit, false⟩) :
    ofRequest settings resource [("page", .text number.repr)] =
      .ok { pagination := ⟨number, limit, false⟩ } := by
  have paged := PaginationRequest.ofRequest_page positive short usual
  refine ofRequest_paged (fun name other => ?_) paged
  simp_all [Record.get?, Entries.lookup_cons]

theorem QuerySpec.ofParameters_plain (resource : Resource) (pagination : PaginationRequest)
    (scopes : List Filter.Node) :
    ofParameters resource { pagination } [] scopes =
      .ok { resource, wheres := scopes } := by
  have noIncludes : mergeRequests [] = [] := List.mergeSort_nil
  rw [ofParameters_eq, QueryParameters.effectiveAggregates_eq_nil rfl rfl, noIncludes]
  dsimp only
  rw [Option.toList_none, List.append_nil]
  rfl

theorem RelationRequest.ofRequest_unasked {registry : Registry} {path : String} {query : Record}
    {user : Value} (free : query.get? "include" = none) :
    ofRequest registry settings resource { path, query, user } = .ok [] := by
  have noPaths : Request.input { path, query, user } "include" = .null := by
    change ((none <|> query.get? "include").getD Value.null) = _
    rw [free]
    rfl
  rw [ofRequest, noPaths]
  exact congrArg Except.ok List.mergeSort_nil

theorem QueryParameters.IsPlain.spec {parameters : QueryParameters}
    {pagination : PaginationSettings} {requested : List RelationRequest} {scopes : List Filter.Node}
    {spec : QuerySpec} (plain : parameters.IsPlain pagination resource)
    (built : QuerySpec.ofParameters resource parameters requested scopes = .ok spec) :
    spec.resource = resource ∧ spec.sorts = [] ∧ resource.keyName ∉ spec.aggregateAliases ∧
      ∀ row, Contents.rowMatches { resource, wheres := scopes } row =
        Contents.rowMatches spec row := by
  obtain ⟨columns, rfl⟩ := QuerySpec.ofParameters_eq_ok built
  refine ⟨rfl, plain.unsorted, ?_, ?_⟩
  · rw [QuerySpec.aggregateAliases,
      QueryParameters.effectiveAggregates_of_unsorted plain.unsorted]
    exact plain.uncounted
  · intro row
    unfold Contents.rowMatches
    rw [plain.unfiltered, plain.unsearched, plain.untrashed, Option.toList_none, List.append_nil]
    rfl

end Links

namespace Page

def linked (page : Page) (last : Int) : List (String × Int) :=
  [("first", 1), ("last", last), ("prev", page.page - 1), ("next", page.page + 1)]

theorem one_le_last {page : Page} {last : Int} (ends : page.lastPage = .ok last) : 1 ≤ last := by
  obtain ⟨pages, _, isLast⟩ := bind_eq_ok.mp ends
  cases isLast
  exact Int.le_max_left _ _

theorem link_eq {page : Page} {path name link : String} {number last : Int}
    (isLinked : (name, number) ∈ page.linked last)
    (shown : Record.get (page.links path last) name = .text link)
    (positive : 1 ≤ page.page) (ends : page.lastPage = .ok last) :
    link = pageUrl path number ∧ 1 ≤ number := by
  have last_positive := one_le_last ends
  simp only [linked, List.mem_cons, Prod.mk.injEq, List.not_mem_nil, or_false] at isLinked
  rcases isLinked with ⟨rfl, rfl⟩ | ⟨rfl, rfl⟩ | ⟨rfl, rfl⟩ | ⟨rfl, rfl⟩
  · cases shown
    exact ⟨rfl, Int.le_refl 1⟩
  · cases shown
    exact ⟨rfl, last_positive⟩
  · have previous : (if 1 < page.page then Value.text (pageUrl path (page.page - 1)) else .null) =
        .text link := by
      simpa [links, Record.get, List.lookup] using shown
    split at previous
    · cases previous
      exact ⟨rfl, by omega⟩
    · cases previous
  · have next : (if page.page < last then Value.text (pageUrl path (page.page + 1)) else .null) =
        .text link := by
      simpa [links, Record.get, List.lookup] using shown
    split at next
    · cases next
      exact ⟨rfl, by omega⟩
    · cases next

end Page

/-! ## Links of a listing -/

namespace Endpoint

variable {τ : Type} {endpoint : Endpoint (Memory × τ)} {memory : Memory} {side : τ}
variable {request : Request} {parameters : QueryParameters} {spec : QuerySpec} {page : Page}
variable {envelope : Envelope}

/-- The page that answers a request for a listing, with the query that it is fetched by. -/
structure AnswersPage (endpoint : Endpoint (Memory × τ)) (request : Request) (state : Memory × τ)
    (parameters : QueryParameters) (spec : QuerySpec) (page : Page) (envelope : Envelope) :
    Prop where
  read : endpoint.readParameters request.query = .ok parameters
  built : ∃ requested, endpoint.readRelations request = .ok requested ∧
    QuerySpec.ofParameters endpoint.resource parameters requested endpoint.scopes = .ok spec ∧
      Envelope.ofPage requested request.path page = .ok envelope
  got : (Store.paginate endpoint.registry spec parameters.pagination.page
    parameters.pagination.limit).Yields state page
  answer : (endpoint.index request).Yields state (.envelope envelope)

/-- The links of a listing can be followed: each of them leads to the page that it names, which has
the same length and total and shows its window of the same rows. -/
def LinksFollowed (endpoint : Endpoint (Memory × τ)) (request : Request) (memory : Memory)
    (side : τ) : Prop :=
  ∃ parameters spec page envelope rows last links,
    endpoint.AnswersPage request (memory, side) parameters spec page envelope ∧
    Contents.Lists endpoint.registry memory.contents spec rows ∧
    page.ShowsWindow spec.selectedColumns rows parameters.pagination.page
      parameters.pagination.limit ∧
    page.lastPage = .ok last ∧ envelope.links = some links ∧
    ∀ name number link, (name, number) ∈ page.linked last →
      links.get name = .text link → number < 10 ^ Numeral.digitLimit →
        ∃ ownParameters own followed answer,
          endpoint.AnswersPage (request.follow link) (memory, side) ownParameters own followed
            answer ∧
          followed.ShowsWindow
            (endpoint.resource.columns.filter (· ∉ spec.aggregateAliases)) rows number
              parameters.pagination.limit

theorem answersPage_of_index {requested : List RelationRequest}
    (authorized : (endpoint.authorizeListing request).Yields (memory, side) ())
    (read : endpoint.readParameters request.query = .ok parameters)
    (paginated : parameters.pagination.disabled = false)
    (relations : endpoint.readRelations request = .ok requested)
    (built : QuerySpec.ofParameters endpoint.resource parameters requested endpoint.scopes =
      .ok spec)
    (got : (Store.paginate endpoint.registry spec parameters.pagination.page
      parameters.pagination.limit).Yields (memory, side) page)
    (wrapped : Envelope.ofPage requested request.path page = .ok envelope) :
    endpoint.AnswersPage request (memory, side) parameters spec page envelope := by
  refine ⟨read, ⟨requested, relations, built, wrapped⟩, got, ?_⟩
  refine index_eq_ok.mpr ⟨_, parameters, authorized, read, ?_⟩
  refine collection_eq_ok.mpr ⟨requested, spec, relations, built, ?_⟩
  rw [if_neg (by simp [paginated])]
  exact ⟨page, envelope, got, wrapped, rfl⟩

/-- What a link leads to: a page of the usual length of what is in scope. -/
theorem answersPage_of_link {count : Nat} {limit last : Int} (path : '?' ∉ request.path.toList)
    (positive : 1 ≤ count) (short : count < 10 ^ Numeral.digitLimit)
    (usual : PaginationRequest.ofRequest endpoint.settings.pagination [] = .ok ⟨1, limit, false⟩)
    (authorized : (endpoint.authorizeListing request).Yields (memory, side) ())
    (got : (Store.paginate endpoint.registry
      { resource := endpoint.resource, wheres := endpoint.scopes } count limit).Yields
        (memory, side) page)
    (ends : page.lastPage = .ok last) :
    endpoint.AnswersPage (request.follow (pageUrl request.path count)) (memory, side)
      { pagination := ⟨count, limit, false⟩ }
      { resource := endpoint.resource, wheres := endpoint.scopes } page
      ⟨Envelope.dataOf [] page.items, some (page.links request.path last),
        some (page.figures request.path last)⟩ := by
  rw [Request.follow_pageUrl path]
  have read : endpoint.readParameters [("page", .text count.repr)] =
      .ok { pagination := ⟨count, limit, false⟩ } :=
    QueryParameters.ofRequest_page positive short usual
  refine answersPage_of_index authorized read rfl ?_ (QuerySpec.ofParameters_plain _ _ _) got ?_
  · exact RelationRequest.ofRequest_unasked (by simp [Record.get?, List.lookup])
  · exact bind_eq_ok.mpr ⟨last, ends, rfl⟩

theorem index_eq_page {after : Memory × τ}
    (authorizes : (endpoint.authorizeListing request).Ensures (· = ·) fun _ => True)
    (done : (endpoint.index request).perform (memory, side) = (.ok (.envelope envelope), after))
    (linked : envelope.links ≠ none) :
    after = (memory, side) ∧ (endpoint.authorizeListing request).Yields (memory, side) () ∧
      ∃ parameters spec page,
        endpoint.AnswersPage request (memory, side) parameters spec page envelope := by
  obtain ⟨opened, parameters, authorized, read, collected⟩ := index_eq_ok.mp done
  obtain ⟨rfl, _⟩ := authorizes.relatesOk authorized
  obtain ⟨requested, spec, relations, built, fetched⟩ := collection_eq_ok.mp collected
  split at fetched
  · obtain ⟨entities, _, isWhole⟩ := fetched
    cases isWhole
    exact absurd rfl linked
  · obtain ⟨page, wrapped, got, isWrapped, isPage⟩ := fetched
    obtain ⟨rfl, _⟩ := Store.paginate_eq_ok got
    cases isPage
    exact ⟨rfl, authorized, parameters, spec, page,
      ⟨read, ⟨requested, relations, built, isWrapped⟩, got, done⟩⟩

/-- Every link of a listing can be followed where the query says nothing about the rows that is lost
in a link. -/
theorem links_followed {after : Memory × τ}
    (keyed : endpoint.resource.keyName ∈ endpoint.resource.columns)
    (authorizes : (endpoint.authorizeListing request).Ensures (· = ·) fun _ => True)
    (path : '?' ∉ request.path.toList)
    (plain : ∀ parameters, endpoint.readParameters request.query = .ok parameters →
      parameters.IsPlain endpoint.settings.pagination endpoint.resource)
    (done : (endpoint.index request).perform (memory, side) = (.ok (.envelope envelope), after))
    (linked : envelope.links ≠ none) :
    after = (memory, side) ∧ endpoint.LinksFollowed request memory side := by
  obtain ⟨rfl, authorized, parameters, spec, page, answers⟩ := index_eq_page authorizes done linked
  obtain ⟨requested, relations, built, wrapped⟩ := answers.built
  have isPlain := plain parameters answers.read
  obtain ⟨isResource, byKey, uncounted, matching⟩ := isPlain.spec built
  obtain ⟨_, rows, lists, complete, shows⟩ := Store.paginate_shows answers.got
  obtain ⟨last, ends, isEnvelope⟩ := bind_eq_ok.mp wrapped
  cases isEnvelope
  refine ⟨rfl, parameters, spec, page, _, rows, last, _, answers, lists, shows, ends, rfl, ?_⟩
  intro name number link isLinked shown short
  obtain ⟨rfl, positive⟩ := Page.link_eq isLinked shown
    (shows.numbered ▸ QueryParameters.one_le_page answers.read) ends
  obtain ⟨count, rfl⟩ := Int.eq_ofNat_of_zero_le (Int.le_of_lt positive)
  -- What a link asks for lists the same rows without the counts.
  rw [← isResource] at uncounted
  obtain ⟨bare, listsBare, agree⟩ :=
    Contents.Lists.bare matching isResource.symm rfl rfl byKey uncounted lists
  have completeBare : ∀ row ∈ bare, Record.has row endpoint.resource.keyName = true := by
    intro row isRow
    obtain ⟨counted, isCounted, agree⟩ := exists_of_mem_right agree isRow
    rw [← isResource, ← agree.has uncounted]
    exact complete counted isCounted
  obtain ⟨followed, got, showsBare⟩ := Store.paginate_yields_window rfl keyed completeBare listsBare
    count parameters.pagination.limit
  have showsRows : followed.ShowsWindow (endpoint.resource.columns.filter
      (· ∉ spec.aggregateAliases)) rows count parameters.pagination.limit := by
    refine showsBare.ofAgree agree fun column isKept => ?_
    rw [List.mem_filter, decide_eq_true_eq] at isKept
    exact isKept
  have endsAlike : followed.lastPage = .ok last := by
    rw [← ends, Page.lastPage, Page.lastPage, showsRows.counted, showsRows.sized, shows.counted,
      shows.sized]
  exact ⟨_, _, followed, _, answersPage_of_link path (by omega) (by exact_mod_cast short)
    isPlain.usual authorized got endsAlike, showsRows⟩

def pairedEndpoint : Endpoint (Memory × Unit) :=
  { treeEndpoint with settings := { pagination := { defaultLimit := 2 } } }

set_option maxRecDepth 10000 in
theorem links_followed_tree :
    '?' ∉ withChildren.path.toList ∧ (∃ envelope links,
      (pairedEndpoint.index withChildren).Yields (Store.treeNodes, ()) (.envelope envelope) ∧
        envelope.links = some links ∧ links.get "next" = .text "/?page=2") ∧
      pairedEndpoint.LinksFollowed withChildren Store.treeNodes () := by
  have authorizes : (pairedEndpoint.authorizeListing withChildren).Ensures (· = ·) fun _ => True :=
    fun _ => ⟨rfl, fun _ _ => trivial⟩
  have read : pairedEndpoint.readParameters withChildren.query =
      .ok { pagination := ⟨1, 2, false⟩ } := by
    with_unfolding_all rfl
  have relations : pairedEndpoint.readRelations withChildren = .ok [{ path := "children" }] := by
    with_unfolding_all rfl
  have built : QuerySpec.ofParameters pairedEndpoint.resource { pagination := ⟨1, 2, false⟩ }
      [{ path := "children" }] pairedEndpoint.scopes = .ok nodesWithChildren := by
    with_unfolding_all rfl
  have got : (Store.paginate Store.nodeRegistry nodesWithChildren 1 2).Yields
      (Store.treeNodes, ()) ⟨[
        Store.treeEntity 1 .null .null [("children", .many [
          Store.treeEntity 2 (.int 1) (.int 3) [], Store.treeEntity 3 (.int 1) (.int 4) []])],
        Store.treeEntity 2 (.int 1) (.int 3) [("children", .many [])]], 3, 1, 2⟩ := by
    rw [Action.Yields]
    cbv
  have answers := answersPage_of_index (show (pairedEndpoint.authorizeListing withChildren).Yields
      (Store.treeNodes, ()) () from rfl) read rfl relations built got
    (bind_eq_ok.mpr ⟨2, (show Page.lastPage _ = .ok 2 from rfl), rfl⟩)
  have plain : ∀ parameters, pairedEndpoint.readParameters withChildren.query = .ok parameters →
      parameters.IsPlain pairedEndpoint.settings.pagination pairedEndpoint.resource := by
    intro parameters readAgain
    cases read.symm.trans readAgain
    exact ⟨rfl, rfl, rfl, rfl, rfl, List.not_mem_nil⟩
  exact ⟨by decide, ⟨_, _, answers.answer, rfl, rfl⟩,
    (links_followed (by decide) authorizes (by decide) plain answers.answer
      (Option.some_ne_none _)).2⟩

/-! ## Links that lead astray -/

theorem AnswersPage.unique {state : Memory × τ} {otherParameters : QueryParameters}
    {otherSpec : QuerySpec} {otherPage : Page} {otherEnvelope : Envelope}
    (answers : endpoint.AnswersPage request state parameters spec page envelope)
    (others : endpoint.AnswersPage request state otherParameters otherSpec otherPage
      otherEnvelope) : otherParameters = parameters ∧ otherSpec = spec ∧ otherPage = page := by
  obtain ⟨requested, relations, built, _⟩ := answers.built
  obtain ⟨otherRequested, otherRelations, otherBuilt, _⟩ := others.built
  cases answers.read.symm.trans others.read
  cases relations.symm.trans otherRelations
  cases built.symm.trans otherBuilt
  cases answers.got.symm.trans others.got
  exact ⟨rfl, rfl, rfl⟩

/-- Where the links of a first page can be followed, the first link leads to that page again. -/
theorem LinksFollowed.first {own : QueryParameters} {ownSpec : QuerySpec} {followed : Page}
    {answer : Envelope} (follows : endpoint.LinksFollowed request memory side)
    (answers : endpoint.AnswersPage request (memory, side) parameters spec page envelope)
    (leads : endpoint.AnswersPage (request.follow (pageUrl request.path 1)) (memory, side) own
      ownSpec followed answer) (isFirst : parameters.pagination.page = 1) :
    followed.total = page.total ∧ followed.perPage = page.perPage ∧
      ∀ column ∈ spec.selectedColumns, column ∈ endpoint.resource.columns →
        column ∉ spec.aggregateAliases →
          followed.items.map (Entity.get · column) = page.items.map (Entity.get · column) := by
  obtain ⟨_, _, _, _, rows, last, links, answersAgain, _, shows, _, linked, follows⟩ := follows
  obtain ⟨rfl, rfl, rfl⟩ := answersAgain.unique answers
  obtain ⟨requested, _, _, wrapped⟩ := answersAgain.built
  obtain ⟨_, _, isEnvelope⟩ := bind_eq_ok.mp wrapped
  cases isEnvelope
  cases linked
  have short : (1 : Int) < 10 ^ Numeral.digitLimit := one_lt_pow₀ (by decide) (by decide)
  obtain ⟨_, _, _, _, leadsAgain, showsToo⟩ := follows "first" 1 _ List.mem_cons_self rfl short
  obtain ⟨_, _, rfl⟩ := leadsAgain.unique leads
  rw [isFirst] at shows
  refine ⟨showsToo.counted.trans shows.counted.symm, showsToo.sized.trans shows.sized.symm, ?_⟩
  intro column selected isColumn uncounted
  have kept : column ∈ endpoint.resource.columns.filter (· ∉ spec.aggregateAliases) :=
    List.mem_filter.mpr ⟨isColumn, decide_eq_true uncounted⟩
  rw [← map_eq_of_forall₂ showsToo.shown fun row entity same => (same column kept).symm,
    ← map_eq_of_forall₂ shows.shown fun row entity same => (same column selected).symm]

/-- A listing is linked to other pages, but its links cannot be followed. -/
def LinksAstray (endpoint : Endpoint (Memory × Unit)) (request : Request) (memory : Memory) :
    Prop :=
  endpoint.registry.validate.isOk = true ∧ endpoint.binding.authorizer.GrantsAll ∧
    '?' ∉ request.path.toList ∧
    (∃ envelope, (endpoint.index request).Yields (memory, ()) (.envelope envelope) ∧
      envelope.links ≠ none) ∧
    ¬ endpoint.LinksFollowed request memory ()

/-- Links lead astray when the first one leads to another page than the first one. -/
theorem astray_of_first {endpoint : Endpoint (Memory × Unit)} {requested : List RelationRequest}
    {followed : Page} {limit last followedLast : Int} {column : String}
    (valid : endpoint.registry.validate.isOk = true)
    (grants : endpoint.binding.authorizer.GrantsAll) (path : '?' ∉ request.path.toList)
    (usual : PaginationRequest.ofRequest endpoint.settings.pagination [] = .ok ⟨1, limit, false⟩)
    (leads : (Store.paginate endpoint.registry
      { resource := endpoint.resource, wheres := endpoint.scopes } 1 limit).Yields
        (memory, ()) followed)
    (leadsTo : followed.lastPage = .ok followedLast)
    (read : endpoint.readParameters request.query = .ok parameters)
    (paginated : parameters.pagination.disabled = false) (isFirst : parameters.pagination.page = 1)
    (relations : endpoint.readRelations request = .ok requested)
    (built : QuerySpec.ofParameters endpoint.resource parameters requested endpoint.scopes =
      .ok spec)
    (got : (Store.paginate endpoint.registry spec parameters.pagination.page
      parameters.pagination.limit).Yields (memory, ()) page)
    (ends : page.lastPage = .ok last)
    (isShown : column ∈ spec.selectedColumns ∧ column ∈ endpoint.resource.columns ∧
      column ∉ spec.aggregateAliases)
    (differs : followed.total ≠ page.total ∨ followed.perPage ≠ page.perPage ∨
      followed.items.map (Entity.get · column) ≠ page.items.map (Entity.get · column)) :
    endpoint.LinksAstray request memory := by
  have authorized : (endpoint.authorizeListing request).Yields (memory, ()) () :=
    (grants _ _ _ _).bind rfl
  have answers := answersPage_of_index authorized read paginated relations built got
    (bind_eq_ok.mpr ⟨last, ends, rfl⟩)
  have follows := answersPage_of_link path (Nat.le_refl 1)
    (Nat.one_lt_pow (by decide) (by decide)) usual authorized leads leadsTo
  refine ⟨valid, grants, path, ⟨_, answers.answer, nofun⟩, fun followable => ?_⟩
  obtain ⟨totals, lengths, items⟩ := followable.first answers follows isFirst
  rcases differs with otherTotal | otherLength | otherItems
  · exact otherTotal totals
  · exact otherLength lengths
  · exact otherItems (items column isShown.1 isShown.2.1 isShown.2.2)

/-- Notes that can be found by their text and be trashed. -/
def memos : Resource where
  name := "memos"
  model := { name := "Memo", table := "memos",
             columns := [Samples.countedKey, Samples.optional "text" .text,
               Samples.optional "removed_on" .moment] }
  filterable := ["id"]
  sortable := ["id"]
  searchable := ["text"]
  softDeletes := true
  deletedAtColumn := "removed_on"

def memosEndpoint : Endpoint (Memory × Unit) where
  registry := ⟨[memos]⟩
  now := Samples.Library.trashedAt
  binding := { resource := memos }

def memoRow (id : Int) (text : String) (removed : Value) : Record :=
  [("id", .int id), ("text", .text text), ("removed_on", removed)]

def threeMemos : Memory where
  contents := { tables := [("memos", [(.int 1, memoRow 1 "call" .null),
    (.int 2, memoRow 2 "write" .null),
    (.int 3, memoRow 3 "wait" (.moment Samples.Library.trashedAt))])] }

def memoEntity (id : Int) (text : String) (removed : Value) : Entity :=
  .mk "memos" (.int id) (memoRow id text removed) [] false

def firstMemos : Page where
  items := [memoEntity 1 "call" .null, memoEntity 2 "write" .null]
  total := 2
  page := 1
  perPage := 15

set_option maxRecDepth 10000 in
theorem paginate_memos : (Store.paginate memosEndpoint.registry
    { resource := memosEndpoint.resource, wheres := memosEndpoint.scopes } 1 15).Yields
      (threeMemos, ()) firstMemos := by
  rw [Action.Yields]
  cbv

/-- The first link of notes leads to the first page by key. -/
theorem astray_memos {query : Record} {last : Int}
    (read : memosEndpoint.readParameters query = .ok parameters)
    (unasked : query.get? "include" = none) (isFirst : parameters.pagination.page = 1)
    (paginated : parameters.pagination.disabled = false)
    (built : QuerySpec.ofParameters memos parameters [] [] = .ok spec)
    (got : (Store.paginate ⟨[memos]⟩ spec parameters.pagination.page
      parameters.pagination.limit).Yields (threeMemos, ()) page)
    (ends : page.lastPage = .ok last)
    (isShown : "id" ∈ spec.selectedColumns ∧ "id" ∉ spec.aggregateAliases)
    (differs : firstMemos.total ≠ page.total ∨ firstMemos.perPage ≠ page.perPage ∨
      firstMemos.items.map (Entity.get · "id") ≠ page.items.map (Entity.get · "id")) :
    memosEndpoint.LinksAstray { query } threeMemos :=
  astray_of_first (by decide +kernel) Authorizer.allowAll_grantsAll
    (show '?' ∉ "/".toList by decide) rfl paginate_memos
    (show firstMemos.lastPage = .ok 1 from rfl) read paginated isFirst
    (RelationRequest.ofRequest_unasked unasked) built got ends
    ⟨isShown.1, List.mem_cons_self, isShown.2⟩ differs

set_option maxRecDepth 10000 in
theorem limit_astray : memosEndpoint.LinksAstray { query := [("limit", .int 1)] } threeMemos := by
  have read : memosEndpoint.readParameters [("limit", .int 1)] =
      .ok { pagination := ⟨1, 1, false⟩ } := by
    with_unfolding_all rfl
  have got : (Store.paginate ⟨[memos]⟩ { resource := memos } 1 1).Yields (threeMemos, ())
      ⟨[memoEntity 1 "call" .null], 2, 1, 1⟩ := by
    rw [Action.Yields]
    cbv
  exact astray_memos read rfl rfl rfl (by with_unfolding_all rfl) got
    (show Page.lastPage _ = .ok 2 from rfl) (by decide) (.inr (.inl (by decide)))

def secondMemo : Record :=
  [("filters", .list [.object [("field", .text "id"), ("value", .int 2)]])]

set_option maxRecDepth 10000 in
theorem filters_astray : memosEndpoint.LinksAstray { query := secondMemo } threeMemos := by
  have read : memosEndpoint.readParameters secondMemo =
      .ok { filters := some (.group .both [.leaf ⟨"id", .eq, .int 2, .both⟩]) } := by
    with_unfolding_all rfl
  have got : (Store.paginate ⟨[memos]⟩ { resource := memos, wheres :=
      [.group .both [.leaf ⟨"id", .eq, .int 2, .both⟩]] } 1 15).Yields (threeMemos, ())
        ⟨[memoEntity 2 "write" .null], 1, 1, 15⟩ := by
    rw [Action.Yields]
    cbv
  exact astray_memos read rfl rfl rfl (by with_unfolding_all rfl) got
    (show Page.lastPage _ = .ok 1 from rfl) (by decide) (.inl (by decide))

set_option maxRecDepth 10000 in
theorem search_astray :
    memosEndpoint.LinksAstray { query := [("search", .text "write")] } threeMemos := by
  have read : memosEndpoint.readParameters [("search", .text "write")] =
      .ok { searchTerm := some ⟨"write", ["text"], true⟩ } := by
    with_unfolding_all rfl
  have got : (Store.paginate ⟨[memos]⟩
      { resource := memos, searchTerm := some ⟨"write", ["text"], true⟩ } 1 15).Yields
        (threeMemos, ()) ⟨[memoEntity 2 "write" .null], 1, 1, 15⟩ := by
    rw [Action.Yields]
    cbv
  exact astray_memos read rfl rfl rfl (by with_unfolding_all rfl) got
    (show Page.lastPage _ = .ok 1 from rfl) (by decide) (.inl (by decide))

set_option maxRecDepth 10000 in
theorem trashed_astray :
    memosEndpoint.LinksAstray { query := [("with_trashed", .bool true)] } threeMemos := by
  have read : memosEndpoint.readParameters [("with_trashed", .bool true)] =
      .ok { trashed := .included } := by
    with_unfolding_all rfl
  have got : (Store.paginate ⟨[memos]⟩ { resource := memos, trashed := .included } 1 15).Yields
      (threeMemos, ()) ⟨[memoEntity 1 "call" .null, memoEntity 2 "write" .null,
        memoEntity 3 "wait" (.moment Samples.Library.trashedAt)], 3, 1, 15⟩ := by
    rw [Action.Yields]
    cbv
  exact astray_memos read rfl rfl rfl (by with_unfolding_all rfl) got
    (show Page.lastPage _ = .ok 1 from rfl) (by decide) (.inl (by decide))

set_option maxRecDepth 10000 in
theorem sort_astray :
    memosEndpoint.LinksAstray { query := [("sort", .text "-id")] } threeMemos := by
  have read : memosEndpoint.readParameters [("sort", .text "-id")] =
      .ok { sorts := [⟨"id", .descending⟩] } := by
    with_unfolding_all rfl
  have got : (Store.paginate ⟨[memos]⟩ { resource := memos, sorts := [⟨"id", .descending⟩] }
      1 15).Yields (threeMemos, ())
        ⟨[memoEntity 2 "write" .null, memoEntity 1 "call" .null], 2, 1, 15⟩ := by
    rw [Action.Yields]
    cbv
  exact astray_memos read rfl rfl rfl (by with_unfolding_all rfl) got
    (show Page.lastPage _ = .ok 1 from rfl) (by decide) (.inr (.inr (by rintro ⟨⟩)))

/-- Tallies with the column for their key that is named like a count. -/
def tallies : Resource where
  name := "tallies"
  model := { name := "Tally", table := "tallies",
             columns := [Samples.countedKey, Samples.optional "own_count" .integer] }
  keyName := "own_count"
  aggregates := ["own"]
  relations := [Samples.hasMany "own" "tallies" "own_count"]

def talliesEndpoint : Endpoint (Memory × Unit) where
  registry := ⟨[tallies]⟩
  now := Samples.Library.trashedAt
  binding := { resource := tallies }

def tally (id count : Int) : Entity :=
  .mk "tallies" (.int count) [("id", .int id), ("own_count", .int count)] [] false

def twoTallies : Memory where
  contents := { tables := [("tallies",
    [(.int 2, (tally 1 2).attributes), (.int 1, (tally 2 1).attributes)])] }

set_option maxRecDepth 10000 in
/-- The first link leads to the order of the keys, which a count hides. -/
theorem count_astray :
    talliesEndpoint.LinksAstray { query := [("with_count", .text "own")] } twoTallies := by
  have read : talliesEndpoint.readParameters [("with_count", .text "own")] =
      .ok { aggregates := [⟨"own"⟩] } := by
    with_unfolding_all rfl
  have got : (Store.paginate ⟨[tallies]⟩ { resource := tallies, aggregates := [⟨"own"⟩] }
      1 15).Yields (twoTallies, ()) ⟨[tally 1 1, tally 2 1], 2, 1, 15⟩ := by
    rw [Action.Yields]
    cbv
  have leads : (Store.paginate ⟨[tallies]⟩ { resource := tallies } 1 15).Yields (twoTallies, ())
      ⟨[tally 2 1, tally 1 2], 2, 1, 15⟩ := by
    rw [Action.Yields]
    cbv
  have isShown : "id" ∈ ["id", "own_count"] ∧ "id" ∈ ["id", "own_count"] ∧
      "id" ∉ ["own_count"] := by
    decide
  exact astray_of_first (by decide +kernel) Authorizer.allowAll_grantsAll
    (show '?' ∉ "/".toList by decide) rfl leads (show Page.lastPage _ = .ok 1 from rfl) read rfl rfl
    (RelationRequest.ofRequest_unasked (by decide +kernel)) (by with_unfolding_all rfl) got
    (show Page.lastPage _ = .ok 1 from rfl) isShown (.inr (.inr (by rintro ⟨⟩)))

/-- The links of a listing do not carry its limit, its filters, its search, its order, what it says
about trashed rows, and counts, one of which may hide the key. -/
theorem links_astray :
    memosEndpoint.LinksAstray { query := [("limit", .int 1)] } threeMemos ∧
      memosEndpoint.LinksAstray { query := secondMemo } threeMemos ∧
        memosEndpoint.LinksAstray { query := [("search", .text "write")] } threeMemos ∧
          memosEndpoint.LinksAstray { query := [("sort", .text "-id")] } threeMemos ∧
            memosEndpoint.LinksAstray { query := [("with_trashed", .bool true)] } threeMemos ∧
              talliesEndpoint.LinksAstray { query := [("with_count", .text "own")] } twoTallies :=
  ⟨limit_astray, filters_astray, search_astray, sort_astray, trashed_astray, count_astray⟩

end Endpoint

end ResourceServer
