import Mathlib
import ResourceServer.Envelope
import ResourceServer.Proofs.Numeric.Quotient
import ResourceServer.Proofs.Store.EagerLoading
import ResourceServer.Proofs.Store.Parts

/-!
# Pages of a listing

The pages of a listing put together are the whole listing.  Each page is counted, cut out and
loaded by itself, and yet its entities have the relations that they have in the whole, its
figures say where its items stand there, and its links lead to neighbours that exist.
-/

namespace ResourceServer

/-! ## Parts of a list -/

/-- Parts of one size that follow each other make up the beginning of a list. -/
theorem flatMap_range_drop_take {α : Type} (items : List α) (size count : Nat) :
    (List.range count).flatMap (fun index => (items.drop (index * size)).take size) =
      items.take (count * size) := by
  induction count with
  | zero => simp
  | succ count induction =>
      rw [List.range_succ, List.flatMap_append, induction, List.flatMap_singleton, Nat.succ_mul,
        List.take_add]

namespace Page

/-- The items in front of a page. -/
def itemsBefore (entities : List Entity) (number perPage : Int) : List Entity :=
  entities.take ((number - 1) * perPage).toNat

/-- The items behind a page. -/
def itemsAfter (entities : List Entity) (number perPage : Int) : List Entity :=
  entities.drop (number * perPage).toNat

/-- A page shows its part of a list: it says where this part stands, how long the list is and
which page is the last one, and it is linked to the pages beside it. -/
structure ShowsPart (page : Page) (entities : List Entity) (number perPage last : Int) : Prop where
  numbered : page.page = number
  sized : page.perPage = perPage
  split : entities = itemsBefore entities number perPage ++ page.items ++
    itemsAfter entities number perPage
  beyond : last < number → page.items = []
  counted : page.total = entities.length
  endsWith : page.lastPage = .ok last
  startsAt : page.firstItem? = if page.items = [] then none
    else some (((itemsBefore entities number perPage).length : Int) + 1)
  stopsAt : page.lastItem? = if page.items = [] then none
    else some (((itemsBefore entities number perPage).length : Int) + page.items.length)
  linked : ∀ requested path, ∃ envelope links,
    Envelope.ofPage requested path page = .ok envelope ∧ envelope.links = some links ∧
      (Record.get links "next" ≠ .null ↔ itemsAfter entities number perPage ≠ []) ∧
      (Record.get links "prev" ≠ .null ↔ number ≠ 1)

/-- The page of a list that has a number. -/
def ofList (entities : List Entity) (number perPage : Int) : Page where
  items := (entities.drop ((number - 1) * perPage).toNat).take perPage.toNat
  total := entities.length
  page := number
  perPage := perPage

section OfList

variable {entities : List Entity} {number perPage last : Int}

theorem ofList_items (positive : 1 ≤ number) (some : 1 ≤ perPage) :
    entities = itemsBefore entities number perPage ++ (ofList entities number perPage).items ++
      itemsAfter entities number perPage := by
  have next : (number * perPage).toNat = ((number - 1) * perPage).toNat + perPage.toNat := by
    rw [← Int.toNat_add (by nlinarith) (by omega)]
    congr 1
    ring
  unfold itemsBefore itemsAfter ofList
  rw [next, ← List.take_add, List.take_append_drop]

theorem itemsAfter_eq_nil (some : 1 ≤ perPage) (positive : 1 ≤ number) :
    itemsAfter entities number perPage = [] ↔ (entities.length : Int) ≤ number * perPage := by
  have nonneg : 0 ≤ number * perPage := by nlinarith
  unfold itemsAfter
  rw [List.drop_eq_nil_iff]
  omega

theorem links_next (page : Page) (path : String) (last : Int) :
    Record.get (page.links path last) "next" ≠ .null ↔ page.page < last := by
  have shown : Record.get (page.links path last) "next" =
      if page.page < last then .text (pageUrl path (page.page + 1)) else .null := by
    simp [links, Record.get, List.lookup]
  rw [shown]
  split <;> simp_all

theorem links_prev (page : Page) (path : String) (last : Int) :
    Record.get (page.links path last) "prev" ≠ .null ↔ 1 < page.page := by
  have shown : Record.get (page.links path last) "prev" =
      if 1 < page.page then .text (pageUrl path (page.page - 1)) else .null := by
    simp [links, Record.get, List.lookup]
  rw [shown]
  split <;> simp_all

/-- A later page exists exactly where items are left behind a page. -/
theorem lt_last_iff (some : 1 ≤ perPage) (positive : 1 ≤ number)
    (isLast : IsLeast {number | 1 ≤ number ∧ (entities.length : Int) ≤ number * perPage} last) :
    number < last ↔ itemsAfter entities number perPage ≠ [] := by
  rw [Ne, itemsAfter_eq_nil some positive, not_le]
  constructor
  · intro before
    by_contra reaches
    exact absurd (isLast.2 ⟨positive, not_lt.mp reaches⟩) (not_le.mpr before)
  · intro left
    by_contra after
    have reaches : last * perPage ≤ number * perPage :=
      Int.mul_le_mul_of_nonneg_right (not_lt.mp after) (by omega)
    exact absurd (isLast.1.2.trans reaches) (not_le.mpr left)

theorem length_itemsBefore (some : 1 ≤ perPage) (positive : 1 ≤ number)
    (shows : (ofList entities number perPage).items ≠ []) :
    ((itemsBefore entities number perPage).length : Int) = (number - 1) * perPage := by
  have nonneg : 0 ≤ (number - 1) * perPage := by nlinarith
  have within : ((number - 1) * perPage).toNat < entities.length := by
    by_contra outside
    refine shows ?_
    unfold ofList
    rw [List.drop_eq_nil_of_le (not_lt.mp outside), List.take_nil]
  unfold itemsBefore
  rw [List.length_take]
  omega

theorem ofList_showsPart (some : 1 ≤ perPage) (positive : 1 ≤ number)
    (ends : (ofList entities number perPage).lastPage = .ok last)
    (isLast : IsLeast {number | 1 ≤ number ∧ (entities.length : Int) ≤ number * perPage} last) :
    (ofList entities number perPage).ShowsPart entities number perPage last where
  numbered := rfl
  sized := rfl
  split := ofList_items positive some
  beyond later := by
    -- The page in front of it already reaches to the end.
    have reaches : (entities.length : Int) ≤ (number - 1) * perPage :=
      isLast.1.2.trans (Int.mul_le_mul_of_nonneg_right (by omega) (by omega))
    unfold ofList
    rw [List.drop_eq_nil_of_le (by omega), List.take_nil]
  counted := rfl
  endsWith := ends
  startsAt := by
    unfold firstItem?
    by_cases none : (ofList entities number perPage).items = []
    · rw [if_pos none, if_pos (List.isEmpty_iff.mpr none)]
    · rw [if_neg none, if_neg (mt List.isEmpty_iff.mp none), length_itemsBefore some positive none]
      rfl
  stopsAt := by
    unfold lastItem?
    by_cases none : (ofList entities number perPage).items = []
    · rw [if_pos none, if_pos (List.isEmpty_iff.mpr none)]
    · rw [if_neg none, if_neg (mt List.isEmpty_iff.mp none), length_itemsBefore some positive none]
      rfl
  linked requested path := by
    refine ⟨_, _, bind_eq_ok.mpr ⟨last, ends, rfl⟩, rfl, ?_, ?_⟩
    · rw [links_next]
      exact lt_last_iff some positive isLast
    · rw [links_prev]
      exact ⟨fun later => (ne_of_gt later), fun other => lt_of_le_of_ne positive (Ne.symm other)⟩

/-- The pages up to one that reaches to the end make up the list. -/
theorem flatMap_ofList (some : 1 ≤ perPage)
    (reaches : 1 ≤ last ∧ (entities.length : Int) ≤ last * perPage) :
    (List.range last.toNat).flatMap (fun index : Nat => (ofList entities (index + 1) perPage).items) =
      entities := by
  have shown : ∀ index : Nat, (ofList entities (index + 1) perPage).items =
      (entities.drop (index * perPage.toNat)).take perPage.toNat := by
    intro index
    unfold ofList
    rw [add_sub_cancel_right, Int.toNat_mul (by omega) (by omega), Int.toNat_natCast]
  have within : entities.length ≤ last.toNat * perPage.toNat := by
    rw [← Int.toNat_mul (by omega) (by omega)]
    omega
  calc
    (List.range last.toNat).flatMap (fun index : Nat => (ofList entities (index + 1) perPage).items) =
        (List.range last.toNat).flatMap fun index =>
          (entities.drop (index * perPage.toNat)).take perPage.toNat :=
      congrArg (List.range last.toNat).flatMap (funext shown)
    _ = entities := by rw [flatMap_range_drop_take, List.take_of_length_le within]

end OfList

end Page

namespace Store

variable {τ : Type} {registry : Registry} {spec : QuerySpec} {memory : Memory} {side : τ}
variable {entities : List Entity} {number perPage : Int}

/-- A page of the entities that match a specification is the page of the list of all of them. -/
theorem paginate_yields
    (narrows : registry.Narrows memory.contents spec.resource spec.includes)
    (some : 1 ≤ perPage) (positive : 1 ≤ number)
    (done : (get registry spec).Yields (memory, side) entities) :
    (paginate registry spec number perPage).Yields (memory, side)
      (Page.ofList entities number perPage) := by
  rw [← getTo_eq_get le_rfl] at done
  obtain ⟨rows, fetched, hydrated⟩ := getTo_yields.mp done
  obtain ⟨load, _, rfl, parts⟩ := hydrateTo_parts narrows hydrated
  have windowed : memory.contents.fetchRows registry spec (Option.some ((number - 1) * perPage))
      (Option.some perPage) = .ok ((rows.drop ((number - 1) * perPage).toNat).take perPage.toNat) :=
    Contents.fetchRows_window (by nlinarith) (by omega) fetched
  have loaded := parts _ (List.Subset.trans (List.take_subset perPage.toNat _)
    (List.drop_subset ((number - 1) * perPage).toNat rows))
  have counted : (count registry spec : Action (Memory × τ) _).Yields (memory, side) rows.length := by
    rw [Action.Yields, Memory.perform_count, Contents.countRows_of_fetchRows fetched]
    rfl
  have page : Page.ofList (rows.map load) number perPage =
      ⟨((rows.drop ((number - 1) * perPage).toNat).take perPage.toNat).map load, rows.length,
        number, perPage⟩ := by
    unfold Page.ofList
    rw [List.length_map, List.map_take, List.map_drop]
  rw [page]
  exact counted.bind (.bind (Memory.yields_fetchRows.mpr windowed) (.bind loaded rfl))

/-- The pages of what matches a specification put together are the whole, and each of them
shows its part. -/
theorem pages_tile {after : Memory × τ}
    (narrows : registry.Narrows memory.contents spec.resource spec.includes)
    (some : 1 ≤ perPage) (few : entities.length < 2 ^ 53)
    (done : (get registry spec).perform (memory, side) = (.ok entities, after)) :
    after = (memory, side) ∧ ∃ (last : Int) (pages : Int → Page),
      IsLeast {number | 1 ≤ number ∧ (entities.length : Int) ≤ number * perPage} last ∧
      (∀ number, 1 ≤ number →
        (paginate registry spec number perPage).Yields (memory, side) (pages number) ∧
          (pages number).ShowsPart entities number perPage last) ∧
      (List.range last.toNat).flatMap (fun index : Nat => (pages (index + 1)).items) = entities := by
  obtain ⟨rfl, _⟩ := get_eq_ok done
  have ends : ∀ number, ∃ last, (Page.ofList entities number perPage).lastPage = .ok last ∧
      IsLeast {number | 1 ≤ number ∧ (entities.length : Int) ≤ number * perPage} last :=
    fun number => Page.lastPage_isLeast (Int.natCast_nonneg _) (Int.ofNat_lt.mpr few) some
  obtain ⟨last, _, isLast⟩ := ends 1
  refine ⟨rfl, last, fun number => Page.ofList entities number perPage, isLast, ?_, ?_⟩
  · intro number positive
    obtain ⟨same, isSame, isLeast⟩ := ends number
    cases isLeast.unique isLast
    exact ⟨paginate_yields narrows some positive done,
      Page.ofList_showsPart some positive isSame isLast⟩
  · exact Page.flatMap_ofList some isLast.1

/-- The query for all nodes, each with the child of the greatest rank and its parent. -/
def treeListing : QuerySpec := { topmost with wheres := [] }

set_option maxRecDepth 10000 in
theorem pages_tile_tree :
    nodeRegistry.Narrows treeNodes.contents treeListing.resource treeListing.includes ∧
      ∃ entities : List Entity, entities.length = 3 ∧
        (get nodeRegistry treeListing).Yields (treeNodes, ()) entities ∧
          ∃ (last : Int) (pages : Int → Page),
            IsLeast {number | 1 ≤ number ∧ (entities.length : Int) ≤ number * 2} last ∧
            (∀ number, 1 ≤ number →
              (paginate nodeRegistry treeListing number 2).Yields (treeNodes, ()) (pages number) ∧
                (pages number).ShowsPart entities number 2 last) ∧
            (List.range last.toNat).flatMap (fun index : Nat => (pages (index + 1)).items) =
              entities := by
  have narrows : nodeRegistry.Narrows treeNodes.contents treeListing.resource treeListing.includes :=
    (treeNodes_separates treeListing.includes).narrows
  have done : (get nodeRegistry treeListing).perform (treeNodes, ()) =
      (.ok [treeEntity 1 .null .null [("children", .many [treeEntity 3 (.int 1) (.int 4)
          [("parent", .single (treeEntity 1 .null .null []))]])],
        treeEntity 2 (.int 1) (.int 3) [("children", .many [])],
        treeEntity 3 (.int 1) (.int 4) [("children", .many [])]], (treeNodes, ())) := by
    cbv
  exact ⟨narrows, _, rfl, done, (pages_tile narrows (by decide) (by decide) done).2⟩

/-! ## Where pages show something else -/

/-- Both pages of a listing can be loaded, but together they are not the whole. -/
def TilesAmiss (registry : Registry) (memory : Memory) (spec : QuerySpec) : Prop :=
  registry.validate.isOk = true ∧ ∃ first second,
    (paginate registry spec 1 1).Yields (memory, ()) first ∧
      (paginate registry spec 2 1).Yields (memory, ()) second ∧ second.lastPage = .ok 2 ∧
        ¬ (get registry spec).Yields (memory, ()) (first.items ++ second.items)

set_option maxRecDepth 10000 in
/-- Without the NaN among the children of another node, the children of a node are sorted. -/
theorem topmostByRank_tilesAmiss : TilesAmiss nodeRegistry unevenNodes topmostByRank := by
  have first : (paginate nodeRegistry topmostByRank 1 1).Yields (unevenNodes, ())
      ⟨[treeEntity 1 .null .null [("children", .many [treeEntity 5 (.int 1) (.int 1) [],
        treeEntity 3 (.int 1) (.int 2) []])]], 2, 1, 1⟩ := by
    rw [Action.Yields]
    cbv
  have second : (paginate nodeRegistry topmostByRank 2 1).Yields (unevenNodes, ())
      ⟨[treeEntity 2 .null .null [("children", .many [
        treeEntity 4 (.int 2) (.float (.nan 0)) []])]], 2, 2, 1⟩ := by
    rw [Action.Yields]
    cbv
  have whole : (get nodeRegistry topmostByRank).Yields (unevenNodes, ()) [
      treeEntity 1 .null .null [("children", .many [treeEntity 3 (.int 1) (.int 2) [],
        treeEntity 5 (.int 1) (.int 1) []])],
      treeEntity 2 .null .null [("children", .many [
        treeEntity 4 (.int 2) (.float (.nan 0)) []])]] := by
    rw [Action.Yields]
    cbv
  exact ⟨by decide +kernel, _, _, first, second, rfl, fun same => by cases whole.symm.trans same⟩

/-- Two parts, each of them a part of the other one. -/
def partPair : Memory where
  contents := { tables := [("parts", [(.int 1, partRow 1 2), (.int 2, partRow 2 1)])] }

set_option maxRecDepth 10000 in
/-- By a count in the place of the value that rows are joined by, an entity is given a row that was
fetched for another one. -/
theorem wholesByCount_tilesAmiss : TilesAmiss ⟨[parts]⟩ partPair wholesByCount := by
  have first : (paginate ⟨[parts]⟩ wholesByCount 1 1).Yields (partPair, ())
      ⟨[.mk "parts" (.int 1) (partRow 1 2) [("parts", .many [
        .mk "parts" (.int 2) (partRow 2 1) [] false])] false], 2, 1, 1⟩ := by
    rw [Action.Yields]
    cbv
  have second : (paginate ⟨[parts]⟩ wholesByCount 2 1).Yields (partPair, ())
      ⟨[.mk "parts" (.int 2) (partRow 2 1) [("parts", .many [])] false], 2, 2, 1⟩ := by
    rw [Action.Yields]
    cbv
  have whole : (get ⟨[parts]⟩ wholesByCount).Yields (partPair, ()) [
      .mk "parts" (.int 1) (partRow 1 2) [("parts", .many [
        .mk "parts" (.int 1) (partRow 1 1) [] false,
        .mk "parts" (.int 2) (partRow 2 1) [] false])] false,
      .mk "parts" (.int 2) (partRow 2 1) [("parts", .many [])] false] := by
    rw [Action.Yields]
    cbv
  exact ⟨by decide +kernel, _, _, first, second, rfl, fun same => by cases whole.symm.trans same⟩

/-- Two nodes whose children have ranks without a common order. -/
def mixedNodes : Memory where
  contents := { tables := [("nodes", [
    (.int 1, treeRow 1 .null .null), (.int 2, treeRow 2 .null .null),
    (.int 3, treeRow 3 (.int 1) (.int 2)), (.int 4, treeRow 4 (.int 2) (.text "last"))])] }

set_option maxRecDepth 10000 in
/-- The children of all nodes cannot be sorted together, but those of each node can. -/
theorem mixedNodes_tilesAmiss : TilesAmiss nodeRegistry mixedNodes topmostByRank := by
  have first : (paginate nodeRegistry topmostByRank 1 1).Yields (mixedNodes, ())
      ⟨[treeEntity 1 .null .null [("children", .many [treeEntity 3 (.int 1) (.int 2) []])]],
        2, 1, 1⟩ := by
    rw [Action.Yields]
    cbv
  have second : (paginate nodeRegistry topmostByRank 2 1).Yields (mixedNodes, ())
      ⟨[treeEntity 2 .null .null [("children", .many [
        treeEntity 4 (.int 2) (.text "last") []])]], 2, 2, 1⟩ := by
    rw [Action.Yields]
    cbv
  have failed : (get nodeRegistry topmostByRank).perform (mixedNodes, ()) =
      (.error (.plain .type), (mixedNodes, ())) := by
    cbv
  exact ⟨by decide +kernel, _, _, first, second, rfl, fun same => by cases failed.symm.trans same⟩

/-- The pages may differ from the whole where rows are sorted by NaN or by values without a common
order, and where a count has the name of the field that they are joined by. -/
theorem tilesAmiss :
    TilesAmiss nodeRegistry unevenNodes topmostByRank ∧
      TilesAmiss ⟨[parts]⟩ partPair wholesByCount ∧
        TilesAmiss nodeRegistry mixedNodes topmostByRank :=
  ⟨topmostByRank_tilesAmiss, wholesByCount_tilesAmiss, mixedNodes_tilesAmiss⟩

end Store

end ResourceServer
