import ResourceServer.Proofs.Following
import ResourceServer.Proofs.Storing

/-!
# Listing everything

The index of an endpoint answers with rows in scope, under their own keys when no count is named
like the key.  Asked for everything on one page it lists every row in scope that is not trashed, and
it answers whenever it is granted and these rows can be sorted by key.
-/

namespace ResourceServer

/-- Everything is asked for, trashed or not, on one page. -/
structure QueryParameters.AsksForAll (parameters : QueryParameters) : Prop where
  whole : parameters.pagination.disabled = true
  unfiltered : parameters.filters = none
  unsearched : parameters.searchTerm = none
  live : parameters.trashed ≠ .only

def Request.everything (user : Value) : Request := { query := [("limit", .int 0)], user }

theorem QueryParameters.ofRequest_everything (settings : Settings) (resource : Resource)
    (user : Value) :
    ofRequest settings resource (Request.everything user).query =
      .ok { pagination := ⟨1, 0, true⟩ } := by
  refine ofRequest_paged (fun name other => ?_) ?_
  · simp_all [Request.everything, Record.get?, Entries.lookup_cons]
  · change (if settings.pagination.disabled || decide ((0 : Int) = 0) then _ else _) = _
    rw [decide_eq_true rfl, Bool.or_true]
    rfl

theorem Contents.selectRows_filter {registry : Registry} {contents : Contents} {spec : QuerySpec}
    {test : Record → Bool} {rows : List Record}
    (matching : ∀ row ∈ rows, rowMatches spec row = .ok (test row))
    (noCounts : spec.aggregates = []) :
    selectRows registry contents spec rows = .ok (rows.filter test) := by
  induction rows with
  | nil => rfl
  | cons row rest induction =>
      rw [List.forall_mem_cons] at matching
      have bare : withCounts registry contents spec row = .ok row := by
        rw [withCounts, noCounts]
        rfl
      rw [selectRows, matching.1, induction matching.2, List.filter_cons, bare]
      cases test row with
      | true => rfl
      | false => rfl

namespace Endpoint

variable {τ : Type} {endpoint : Endpoint (Memory × τ)} {request : Request}
variable {parameters : QueryParameters} {state : Memory × τ}

/-- Fetches what the index answers with: everything, or the items of a page. -/
def listing (endpoint : Endpoint (Memory × τ)) (parameters : QueryParameters) (spec : QuerySpec) :
    Action (Memory × τ) (List Entity) :=
  if parameters.pagination.disabled then Store.get endpoint.registry spec
  else do
    let page ← Store.paginate endpoint.registry spec parameters.pagination.page
      parameters.pagination.limit
    pure page.items

/-- The entities that the index answers a request with. -/
def IndexLists (endpoint : Endpoint (Memory × τ)) (request : Request) (state : Memory × τ)
    (listed : List Entity) : Prop :=
  ∃ parameters requested spec opened envelope after,
    (endpoint.authorizeListing request).perform state = (.ok (), opened) ∧
      endpoint.readParameters request.query = .ok parameters ∧
      endpoint.readRelations request = .ok requested ∧
      QuerySpec.ofParameters endpoint.resource parameters requested endpoint.scopes = .ok spec ∧
      (endpoint.listing parameters spec).perform opened = (.ok listed, after) ∧
      (endpoint.index request).perform state = (.ok (.envelope envelope), after) ∧
        envelope.data = Envelope.dataOf requested listed

/-- The index answers a request, and among what it lists is the key of an entity. -/
def ListsKeyOf (endpoint : Endpoint (Memory × τ)) (request : Request) (state : Memory × τ)
    (entity : Entity) : Prop :=
  ∃ listed, endpoint.IndexLists request state listed ∧
    ∃ shown ∈ listed, shown.key.coincides entity.key = true

theorem indexLists_of_answer {answer : Answer} {after : Memory × τ}
    (done : (endpoint.index request).perform state = (.ok answer, after)) :
    ∃ listed, endpoint.IndexLists request state listed := by
  obtain ⟨opened, parameters, authorized, read, rest⟩ := index_eq_ok.mp done
  obtain ⟨requested, spec, relations, built, rest⟩ := collection_eq_ok.mp rest
  split at rest
  · rename_i whole
    obtain ⟨listed, got, rfl⟩ := rest
    refine ⟨listed, parameters, requested, spec, opened, _, after, authorized, read, relations,
      built, ?_, done, rfl⟩
    rw [listing, if_pos whole]
    exact got
  · rename_i paged
    obtain ⟨page, envelope, got, wrapped, rfl⟩ := rest
    obtain ⟨lastPage, _, isEnvelope⟩ := bind_eq_ok.mp wrapped
    cases isEnvelope
    refine ⟨page.items, parameters, requested, spec, opened, _, after, authorized, read, relations,
      built, ?_, done, rfl⟩
    rw [listing, if_neg paged]
    exact Action.perform_bind_eq_ok.mpr ⟨page, after, got, rfl⟩

/-- What is listed is loaded from fetched rows, from all of them when everything is asked for. -/
theorem listing_eq_ok {spec : QuerySpec} {listed : List Entity} {after : Memory × τ}
    (done : (endpoint.listing parameters spec).perform state = (.ok listed, after)) :
    ∃ rows offset limit,
      state.1.contents.fetchRows endpoint.registry spec offset limit = .ok rows ∧
        Store.Loads spec.resource rows listed ∧
          (parameters.pagination.disabled = true → offset = none ∧ limit = none) := by
  obtain ⟨memory, side⟩ := state
  unfold listing at done
  split at done
  · obtain ⟨_, rows, fetched, loads⟩ := Store.get_eq_ok done
    exact ⟨rows, none, none, fetched, loads, fun _ => ⟨rfl, rfl⟩⟩
  · rename_i paged
    obtain ⟨page, last, got, done⟩ := Action.perform_bind_eq_ok.mp done
    obtain ⟨_, rows, fetched, loads⟩ := Store.paginate_eq_ok got
    cases done
    exact ⟨rows, _, _, fetched, loads, fun whole => absurd whole paged⟩

theorem authorizeListing_untouched {kept : Entity → Entity → Prop} {opened : Memory × τ}
    (respects : endpoint.binding.authorizer.Respects Untouched kept)
    (authorized : (endpoint.authorizeListing request).perform state = (.ok (), opened)) :
    opened.1 = state.1 := by
  have ensures : (endpoint.authorizeListing request).Ensures Untouched fun _ => True :=
    (respects _ _ _).bind fun _ _ => .pure trivial
  exact (ensures.relatesOk authorized).1

/-- What is listed has the keys of rows in scope. -/
theorem IndexLists.inScope {kept : Entity → Entity → Prop} {listed : List Entity}
    (lists : endpoint.IndexLists request state listed)
    (respects : endpoint.binding.authorizer.Respects Untouched kept)
    (uncounted : endpoint.resource.KeyUncounted) :
    ∀ shown ∈ listed, ∃ row ∈ (state.1.contents.table endpoint.resource.name).rows,
      InScope endpoint.scopes row ∧ shown.key = row.get endpoint.resource.keyName := by
  obtain ⟨parameters, requested, spec, opened, envelope, after, authorized, read, _, built, fetched,
    _⟩ := lists
  obtain ⟨rows, offset, limit, fetched, loads, _⟩ := listing_eq_ok fetched
  rw [authorizeListing_untouched respects authorized] at fetched
  obtain ⟨columns, rfl⟩ := QuerySpec.ofParameters_eq_ok built
  intro shown isShown
  obtain ⟨row, inTable, matching, isKey⟩ :=
    loads.keyOf (uncounted.effective read).2 fetched shown isShown
  have holds := Filter.evaluateAll_eq_true.mp (Contents.evaluateAll_of_rowMatches matching)
  exact ⟨row, inTable, fun scope isScope => holds scope (List.mem_append_left _ isScope), isKey⟩

/-- A request for everything, when it is answered, lists every row in scope that is not trashed. -/
theorem listsKey_of_inScope {kept : Entity → Entity → Prop} {answer : Answer} {after : Memory × τ}
    {row : Record} {entity : Entity}
    (respects : endpoint.binding.authorizer.Respects Untouched kept)
    (uncounted : endpoint.resource.KeyUncounted)
    (read : endpoint.readParameters request.query = .ok parameters)
    (asksForAll : parameters.AsksForAll)
    (done : (endpoint.index request).perform state = (.ok answer, after))
    (isRow : row ∈ (state.1.contents.table endpoint.resource.name).rows)
    (inScope : InScope endpoint.scopes row) (live : endpoint.resource.isTrashed row = false)
    (isKey : (row.get endpoint.resource.keyName).coincides entity.key = true) :
    endpoint.ListsKeyOf request state entity := by
  obtain ⟨listed, lists⟩ := indexLists_of_answer done
  refine ⟨listed, lists, ?_⟩
  obtain ⟨others, requested, spec, opened, envelope, after, authorized, readAgain, _, built,
    fetched, _⟩ := lists
  cases read.symm.trans readAgain
  obtain ⟨rows, offset, limit, fetched, loads, whole⟩ := listing_eq_ok fetched
  -- Without a window every row that matches is fetched.
  obtain ⟨rfl, rfl⟩ := whole asksForAll.whole
  rw [authorizeListing_untouched respects authorized] at fetched
  obtain ⟨columns, rfl⟩ := QuerySpec.ofParameters_eq_ok built
  have holds :
      Filter.evaluateAll row (endpoint.scopes ++ parameters.filters.toList) = .ok true := by
    rw [asksForAll.unfiltered, Option.toList_none, List.append_nil]
    exact Filter.evaluateAll_eq_true.mpr inScope
  have reached : Contents.inScope
      { resource := endpoint.resource, trashed := parameters.trashed } row = true := by
    rw [Contents.inScope]
    split
    · cases trashed : parameters.trashed with
      | without => simp [live]
      | included => rfl
      | only => exact absurd trashed asksForAll.live
    · rfl
  obtain ⟨shown, isShown, sameKey⟩ :=
    loads.exists_key (uncounted.effective read).2 fetched isRow (by
      rw [Contents.rowMatches]
      refine (if_pos reached).trans (bind_eq_ok.mpr ⟨true, holds, ?_⟩)
      dsimp only
      rw [asksForAll.unsearched]
      rfl)
  exact ⟨shown, isShown, sameKey ▸ isKey⟩

section Everything

variable {user : Value} {opened after : Memory × τ} {listed : List Entity}

def everythingSpec (endpoint : Endpoint (Memory × τ)) : QuerySpec :=
  { resource := endpoint.resource, wheres := endpoint.scopes }

theorem readParameters_everything : endpoint.readParameters (Request.everything user).query =
    .ok { pagination := ⟨1, 0, true⟩ } :=
  QueryParameters.ofRequest_everything _ _ user

theorem readRelations_everything : endpoint.readRelations (.everything user) = .ok [] :=
  RelationRequest.ofRequest_unasked (by simp [Record.get?, List.lookup])

theorem index_of_got
    (authorized : (endpoint.authorizeListing (.everything user)).perform state = (.ok (), opened))
    (got : (Store.get endpoint.registry endpoint.everythingSpec).perform opened =
      (.ok listed, after)) :
    (endpoint.index (.everything user)).perform state =
      (.ok (.envelope (.ofEntities [] listed)), after) := by
  refine index_eq_ok.mpr ⟨opened, _, authorized, readParameters_everything, ?_⟩
  refine collection_eq_ok.mpr
    ⟨[], _, readRelations_everything, QuerySpec.ofParameters_plain _ _ _, ?_⟩
  rw [if_pos rfl]
  exact ⟨listed, got, rfl⟩

/-- Whether everything, as far as it can be listed, has a key in it. -/
def everythingHas (endpoint : Endpoint (Memory × τ)) (user : Value) (state : Memory × τ)
    (key : Value) : Bool :=
  match (endpoint.authorizeListing (.everything user)).perform state with
  | (.ok _, opened) =>
      match (Store.get endpoint.registry endpoint.everythingSpec).perform opened with
      | (.ok listed, _) => listed.any fun shown => shown.key.coincides key
      | (.error _, _) => false
  | (.error _, _) => false

theorem listsKeyOf_everything {entity : Entity} :
    endpoint.ListsKeyOf (.everything user) state entity ↔
      endpoint.everythingHas user state entity.key = true := by
  rw [everythingHas]
  constructor
  · rintro ⟨listed, ⟨parameters, requested, spec, opened, _, after, authorized, read, relations,
      built, done, _⟩, isListed⟩
    cases readParameters_everything.symm.trans read
    cases readRelations_everything.symm.trans relations
    cases (QuerySpec.ofParameters_plain _ _ _).symm.trans built
    have got : (Store.get endpoint.registry endpoint.everythingSpec).perform opened =
        (.ok listed, after) := done
    rw [authorized]
    dsimp only
    rw [got]
    exact List.any_eq_true.mpr isListed
  · intro has
    split at has
    · rename_i opened authorized
      split at has
      · rename_i listed after got
        have answered := index_of_got authorized got
        exact ⟨listed, ⟨_, _, _, opened, _, after, authorized, readParameters_everything,
          readRelations_everything, QuerySpec.ofParameters_plain _ _ _, got, answered, rfl⟩,
          List.any_eq_true.mp has⟩
      · cases has
    · cases has

end Everything

/-- A request for everything is answered when the listing is granted and the rows that match can be
told and sorted by the column of their key. -/
theorem index_everything {test : Record → Bool} {user : Value} {opened : Memory × τ}
    {kept : Entity → Entity → Prop}
    (respects : endpoint.binding.authorizer.Respects Untouched kept)
    (keyColumn : endpoint.resource.keyName ∈ endpoint.resource.columns)
    (matching : ∀ row, Contents.rowMatches endpoint.everythingSpec row = .ok (test row))
    (keyed : endpoint.IsKeyed state)
    (sortable : Record.areSortable endpoint.resource.keyName
      ((state.1.contents.table endpoint.resource.name).rows.filter test) = true)
    (authorized : (endpoint.authorizeListing (.everything user)).perform state = (.ok (), opened)) :
    ∃ answer, (endpoint.index (.everything user)).perform state = (.ok answer, opened) := by
  have untouched := authorizeListing_untouched respects authorized
  obtain ⟨memory, side⟩ := opened
  obtain rfl : memory = state.1 := untouched
  have selection : Contents.selectRows endpoint.registry state.1.contents endpoint.everythingSpec
      (state.1.contents.table endpoint.resource.name).rows = .ok _ :=
    Contents.selectRows_filter (fun row _ => matching row) rfl
  have complete : ∀ row ∈ (state.1.contents.table endpoint.resource.name).rows.filter test,
      Record.has row endpoint.resource.keyName = true := by
    intro row isRow
    obtain ⟨entry, isEntry, rfl⟩ := List.mem_map.mp (List.mem_of_mem_filter isRow)
    exact keyed.complete entry isEntry
  obtain ⟨sorted, sorting⟩ := Record.exists_sortBy .ascending sortable
  have fetched : state.1.contents.fetchRows endpoint.registry endpoint.everythingSpec none none =
      .ok _ :=
    Contents.fetchRows_eq_ok.mpr ⟨_, sorted, sorted, selection, complete, sorting, rfl, rfl⟩
  obtain ⟨listed, hydrated⟩ := (Store.hydrate_yields_flat rfl keyColumn _ :
    ∃ listed, (Store.hydrate endpoint.registry endpoint.everythingSpec
      ((Contents.window none none sorted).map
        (Record.project · (Contents.resultNames endpoint.everythingSpec)))).Yields
          (state.1, side) listed)
  exact ⟨_, index_of_got authorized ((Memory.yields_fetchRows.mpr fetched).bind hydrated)⟩

end Endpoint

end ResourceServer
