import ResourceServer.Memory
import ResourceServer.Proofs.Lists
import ResourceServer.Proofs.Visibility.Runs

/-!
# Sorting related lists

Sorting compares rows in one field at a time.  Two lists of rows that agree in that field item
by item are rearranged in the same way, so what stands at one place in both is related after
sorting as it was before.  This is so for any comparison, also where NaN makes the outcome
depend on which rows are compared.
-/

namespace ResourceServer

section Windows

variable {α β : Type} {relation : α → β → Prop}

theorem forall₂_sliceFrom {items : List α} {others : List β}
    (related : List.Forall₂ relation items others) (start : Int) :
    List.Forall₂ relation (sliceFrom items start) (sliceFrom others start) := by
  unfold sliceFrom
  rw [related.length_eq]
  exact List.forall₂_drop _ related

theorem forall₂_sliceBetween {items : List α} {others : List β}
    (related : List.Forall₂ relation items others) (start stop : Int) :
    List.Forall₂ relation (sliceBetween items start stop) (sliceBetween others start stop) := by
  unfold sliceBetween
  rw [related.length_eq]
  exact List.forall₂_take _ (List.forall₂_drop _ related)

end Windows

/-! ## Items with a projection -/

namespace Insertion

variable {ι α : Type} (project : ι → α) (precedes : α → α → Bool)

theorem runLength_map (items : List ι) :
    runLength precedes (items.map project) =
      runLength (fun left right => precedes (project left) (project right)) items := by
  induction items with
  | nil => rfl
  | cons item rest induction =>
      cases rest with
      | nil => rfl
      | cons next rest =>
          rw [List.map_cons] at induction
          rw [List.map_cons, List.map_cons, runLength, runLength, induction]

theorem withRun_map (items : List ι) :
    withRun precedes (items.map project) =
      ((withRun (fun left right => precedes (project left) (project right)) items).1.map project,
        (withRun (fun left right => precedes (project left) (project right)) items).2) := by
  cases items with
  | nil => rfl
  | cons first rest =>
      cases rest with
      | nil => rfl
      | cons second rest =>
          have descends := runLength_map project (fun previous next => precedes next previous)
            (first :: second :: rest)
          have ascends := runLength_map project (fun previous next => !precedes next previous)
            (first :: second :: rest)
          rw [List.map_cons, List.map_cons] at descends ascends
          simp only [List.map_cons, withRun, descends, ascends]
          split
          · rw [← List.map_cons, ← List.map_cons, List.map_append, List.map_reverse, List.map_take,
              List.map_drop]
          · rfl

theorem position_map (others : List ι) (item : ι) (low high budget : Nat) :
    position precedes (others.map project) (project item) low high budget =
      position (fun left right => precedes (project left) (project right)) others item low high
        budget := by
  induction budget generalizing low high with
  | zero => rfl
  | succ budget induction =>
      simp only [position, induction, List.getElem?_map, Option.any_map]

theorem insert_map (others : List ι) (item : ι) :
    insert precedes (others.map project) (project item) =
      (insert (fun left right => precedes (project left) (project right)) others item).map
        project := by
  simp only [insert, List.splitAt_eq, List.length_map, position_map, List.map_append,
    List.map_cons, List.map_take, List.map_drop]

theorem foldl_insert_map (items sorted : List ι) :
    (items.map project).foldl (insert precedes) (sorted.map project) =
      (items.foldl (insert fun left right => precedes (project left) (project right))
        sorted).map project := by
  induction items generalizing sorted with
  | nil => rfl
  | cons item rest induction =>
      rw [List.map_cons, List.foldl_cons, List.foldl_cons, insert_map, induction]

/-- Items are arranged by their projections. -/
theorem arrange_map (items : List ι) :
    arrange precedes (items.map project) =
      (arrange (fun left right => precedes (project left) (project right)) items).map project := by
  simp only [arrange, withRun_map, ← List.map_drop, ← List.map_take, foldl_insert_map]

/-- Arranges items in a direction. -/
def arrangeIn (direction : SortDirection) (precedes : ι → ι → Bool) (items : List ι) : List ι :=
  match direction with
  | .ascending => arrange precedes items
  | .descending => (arrange precedes items.reverse).reverse

end Insertion

namespace Record

variable {ι : Type} {field : String} {direction : SortDirection}

theorem areSortable_map_congr {left right : ι → Record}
    (same : ∀ item, (left item).get field = (right item).get field) (items : List ι) :
    areSortable field (items.map left) = areSortable field (items.map right) := by
  induction items with
  | nil => rfl
  | cons item rest induction =>
      simp only [List.map_cons, areSortable, induction, List.all_map, Function.comp_def, same]

theorem inOrder_map_congr {left right : ι → Record}
    (same : ∀ item, (left item).get field = (right item).get field) (first second : ι) :
    inOrder field direction (left first) (left second) =
      inOrder field direction (right first) (right second) := by
  cases direction with
  | ascending => simp only [inOrder, same]
  | descending => simp only [inOrder, same]

theorem mergeSort_map (project : ι → Record) (items : List ι) :
    (items.map project).mergeSort (inOrder field direction) =
      (items.mergeSort fun first second =>
        inOrder field direction (project first) (project second)).map project := by
  symm
  exact List.map_mergeSort fun _ _ _ _ => rfl

theorem arrangeBy_map (project : ι → Record) (items : List ι) :
    arrangeBy field direction (items.map project) =
      (Insertion.arrangeIn direction (fun first second =>
        ((project first).get field).precedes ((project second).get field)) items).map project := by
  cases direction with
  | ascending => exact Insertion.arrange_map project _ items
  | descending =>
      simp only [arrangeBy, Insertion.arrangeIn]
      rw [← List.map_reverse, Insertion.arrange_map, List.map_reverse]

variable {relation : Record → Record → Prop} {rows others : List Record}

/-- Rows that agree in a field are sorted alike by it. -/
theorem sortBy_corresponds
    (same : ∀ left right, relation left right → left.get field = right.get field)
    (direction : SortDirection) (related : List.Forall₂ relation rows others) :
    Corresponds (List.Forall₂ relation) (sortBy field direction rows)
      (sortBy field direction others) := by
  obtain ⟨pairs, rfl, rfl⟩ := exists_pairs related
  have sameField (pair : { pair : Record × Record // relation pair.1 pair.2 }) :
      pair.val.1.get field = pair.val.2.get field := same _ _ pair.property
  have sortable := areSortable_map_congr sameField pairs
  have undecided : (pairs.map fun pair => pair.val.1).any (fun row => (row.get field).isNaN) =
      (pairs.map fun pair => pair.val.2).any fun row => (row.get field).isNaN :=
    any_eq_of_forall₂ related fun left right holds => by rw [same left right holds]
  unfold sortBy
  rw [sortable, undecided]
  split
  · exact .error _
  · split
    · rw [arrangeBy_map, arrangeBy_map]
      simp only [sameField]
      exact .ok (forall₂_pairs _)
    · rw [mergeSort_map, mergeSort_map]
      simp only [inOrder_map_congr sameField]
      exact .ok (forall₂_pairs _)

theorem sortByAll_corresponds {directives : List SortDirective}
    (same : ∀ directive ∈ directives, ∀ left right, relation left right →
      left.get directive.field = right.get directive.field)
    (related : List.Forall₂ relation rows others) :
    Corresponds (List.Forall₂ relation) (sortByAll directives rows)
      (sortByAll directives others) := by
  refine .foldlM (fun directive member _ _ related => ?_) related
  exact sortBy_corresponds (same directive (List.mem_reverse.mp member)) directive.direction
    related

end Record

end ResourceServer
