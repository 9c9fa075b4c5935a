import Mathlib.Data.List.Pairwise
import ResourceServer.Proofs.Memory.Selection
import ResourceServer.Proofs.Value.Order

/-!
# Sorting and leaving out

Rows are sorted stably, so it makes no difference whether some of them are left out before
they are sorted or afterwards.  That takes an order: where NaN occurs in the sorted field
there is none, and the other rows may come to stand elsewhere.
-/

namespace ResourceServer

section Stability

variable {α : Type} {le : α → α → Bool}

theorem filter_append_of_test {test : α → Bool} {passing failing : List α}
    (passes : ∀ item ∈ passing, test item = true)
    (fails : ∀ item ∈ failing, test item = false) :
    (passing ++ failing).filter test = passing := by
  have none : failing.filter test = [] := by
    refine List.filter_eq_nil_iff.mpr fun item member => ?_
    rw [fails item member]
    exact Bool.false_ne_true
  rw [List.filter_append, List.filter_eq_self.mpr passes, none, List.append_nil]

/-- A list falls in only one way into items that pass a test and items that do not. -/
theorem append_inj_of_test {test : α → Bool} {first second third fourth : List α}
    (same : first ++ second = third ++ fourth) (firstPasses : ∀ item ∈ first, test item = true)
    (secondFails : ∀ item ∈ second, test item = false)
    (thirdPasses : ∀ item ∈ third, test item = true)
    (fourthFails : ∀ item ∈ fourth, test item = false) : first = third ∧ second = fourth := by
  have sameFirst : first = third := by
    rw [← filter_append_of_test firstPasses secondFails, same,
      filter_append_of_test thirdPasses fourthFails]
  subst sameFirst
  exact ⟨rfl, List.append_cancel_left same⟩

/-- A stable sort commutes with leaving out items. -/
theorem filter_mergeSort (trans : ∀ first second third, le first second = true →
      le second third = true → le first third = true)
    (total : ∀ first second, (le first second || le second first) = true) (keep : α → Bool)
    (items : List α) :
    (items.mergeSort le).filter keep = (items.filter keep).mergeSort le := by
  induction items with
  | nil => simp
  | cons item rest induction =>
      obtain ⟨before, after, sorted, sortedRest, beforeLess⟩ :=
        List.mergeSort_cons trans total item rest
      have afterNotLess : ∀ other ∈ after, le item other = true := by
        have ordered := List.pairwise_mergeSort trans total (item :: rest)
        rw [sorted, List.pairwise_append, List.pairwise_cons] at ordered
        exact ordered.2.1.1
      rw [sorted, List.filter_append]
      rw [sortedRest, List.filter_append] at induction
      cases kept : keep item with
      | false =>
          rw [List.filter_cons_of_neg (by simp [kept]), List.filter_cons_of_neg (by simp [kept]),
            induction]
      | true =>
          rw [List.filter_cons_of_pos kept, List.filter_cons_of_pos kept]
          obtain ⟨keptBefore, keptAfter, keptSorted, keptRest, keptLess⟩ :=
            List.mergeSort_cons trans total item (rest.filter keep)
          have keptNotLess : ∀ other ∈ keptAfter, le item other = true := by
            have ordered := List.pairwise_mergeSort trans total (item :: rest.filter keep)
            rw [keptSorted, List.pairwise_append, List.pairwise_cons] at ordered
            exact ordered.2.1.1
          rw [keptSorted]
          rw [keptRest] at induction
          -- Both lists fall into the items that come before the new one and the others.
          obtain ⟨sameBefore, sameAfter⟩ := append_inj_of_test induction
            (fun other member => beforeLess other (List.mem_of_mem_filter member))
            (fun other member => by simp [afterNotLess other (List.mem_of_mem_filter member)])
            keptLess (fun other member => by simp [keptNotLess other member])
          rw [sameBefore, sameAfter]

/-- It is enough that the items of the list are in order. -/
theorem filter_mergeSort_of_mem {items : List α}
    (trans : ∀ first ∈ items, ∀ second ∈ items, ∀ third ∈ items, le first second = true →
      le second third = true → le first third = true)
    (total : ∀ first ∈ items, ∀ second ∈ items, (le first second || le second first) = true)
    (keep : α → Bool) :
    (items.mergeSort le).filter keep = (items.filter keep).mergeSort le := by
  let leMember := fun first second : { item // item ∈ items } => le first.1 second.1
  have detached : ∀ members : List { item // item ∈ items },
      (members.mergeSort leMember).map Subtype.val = (members.map Subtype.val).mergeSort le :=
    fun members => List.map_mergeSort fun _ _ _ _ => rfl
  have commutes : (items.attach.mergeSort leMember).filter (keep ∘ Subtype.val) =
      (items.attach.filter (keep ∘ Subtype.val)).mergeSort leMember :=
    filter_mergeSort
      (fun first second third => trans first.1 first.2 second.1 second.2 third.1 third.2)
      (fun first second => total first.1 first.2 second.1 second.2) _ items.attach
  have values := congrArg (List.map Subtype.val) commutes
  rw [detached, ← List.filter_map, detached, ← List.filter_map,
    List.attach_map_subtype_val] at values
  exact values

end Stability

namespace Record

variable {field : String} {direction : SortDirection} {rows sorted : List Record}

theorem areSortable_iff :
    areSortable field rows = true ↔
      rows.Pairwise fun row other => (row.get field).isSortableWith (other.get field) = true := by
  induction rows with
  | nil => simp [areSortable]
  | cons row rest induction => simp [areSortable, induction]

/-- Rows of an orderly field can be sorted when any two of them can, in either order. -/
theorem sortable_of_areSortable (orderly : ∀ row ∈ rows, (row.get field).Orderly)
    (sortable : areSortable field rows = true) :
    ∀ row ∈ rows, ∀ other ∈ rows, (row.get field).isSortableWith (other.get field) = true := by
  have pairs := areSortable_iff.mp sortable
  have turned : rows.Pairwise (flip fun row other =>
      (row.get field).isSortableWith (other.get field) = true) := by
    refine pairs.imp_of_mem fun {row other} isRow isOther known => ?_
    rwa [flip, (orderly other isOther).isSortableWith_comm (orderly row isRow)]
  exact List.Pairwise.forall_of_forall_of_flip
    (fun row isRow => (orderly row isRow).isSortableWith_self) pairs turned

theorem inOrder_total (orderly : ∀ row ∈ rows, (row.get field).Orderly) :
    ∀ first ∈ rows, ∀ second ∈ rows,
      (inOrder field direction first second || inOrder field direction second first) = true := by
  intro first isFirst second isSecond
  have notBoth := (orderly first isFirst).precedes_asymm (orderly second isSecond)
  cases before : (first.get field).precedes (second.get field) with
  | false => cases direction <;> simp [inOrder, before]
  | true => cases direction <;> simp [inOrder, notBoth before]

theorem inOrder_trans (orderly : ∀ row ∈ rows, (row.get field).Orderly)
    (sortable : areSortable field rows = true) :
    ∀ first ∈ rows, ∀ second ∈ rows, ∀ third ∈ rows,
      inOrder field direction first second = true → inOrder field direction second third = true →
        inOrder field direction first third = true := by
  have between : ∀ first ∈ rows, ∀ second ∈ rows, ∀ third ∈ rows,
      (second.get field).precedes (first.get field) = false →
        (third.get field).precedes (second.get field) = false →
          (third.get field).precedes (first.get field) = false := by
    intro first isFirst second isSecond third isThird notFirst notSecond
    have pairs := sortable_of_areSortable orderly sortable
    by_contra before
    rw [Bool.not_eq_false] at before
    cases (orderly third isThird).precedes_or (orderly second isSecond) (orderly first isFirst)
        (pairs third isThird second isSecond) (pairs second isSecond first isFirst) before with
    | inl found =>
        rw [notSecond] at found
        cases found
    | inr found =>
        rw [notFirst] at found
        cases found
  intro first isFirst second isSecond third isThird
  cases direction with
  | ascending =>
      simp only [inOrder, Bool.not_eq_true']
      exact between first isFirst second isSecond third isThird
  | descending =>
      simp only [inOrder, Bool.not_eq_true']
      intro notFirst notSecond
      exact between third isThird second isSecond first isFirst notSecond notFirst

/-- Things that are sorted by the rows that they show are arranged in one way, and some of them are
sorted as they stand there. -/
theorem sortBy_map {α : Type} {read : α → Record} {items : List α}
    (orderly : ∀ item ∈ items, ((read item).get field).Orderly)
    (done : sortBy field direction (items.map read) = .ok sorted) :
    ∃ arranged : List α, arranged.Perm items ∧ sorted = arranged.map read ∧
      ∀ keep : α → Bool, sortBy field direction ((items.filter keep).map read) =
        .ok ((arranged.filter keep).map read) := by
  let le := fun first second => inOrder field direction (read first) (read second)
  have mapped : ∀ items : List α, (items.mergeSort le).map read =
      (items.map read).mergeSort (inOrder field direction) :=
    fun items => List.map_mergeSort fun _ _ _ _ => rfl
  have notNaN : ∀ {some : List α}, some ⊆ items →
      ((some.map read).any fun row => (Record.get row field).isNaN) = false := by
    intro some included
    rw [List.any_map, List.any_eq_false]
    intro item isItem
    rw [Function.comp_apply, (orderly item (included isItem)).isNaN_eq_false]
    exact Bool.false_ne_true
  have orderlyRows : ∀ row ∈ items.map read, (row.get field).Orderly :=
    List.forall_mem_map.mpr orderly
  unfold sortBy at done ⊢
  split at done
  · cases done
  · rename_i sortable
    rw [Bool.not_eq_true', Bool.not_eq_false] at sortable
    rw [notNaN (List.Subset.refl items), if_neg Bool.false_ne_true] at done
    cases done
    refine ⟨items.mergeSort le, List.mergeSort_perm items le, (mapped items).symm, fun keep => ?_⟩
    have sortableKept : areSortable field ((items.filter keep).map read) = true :=
      areSortable_iff.mpr ((areSortable_iff.mp sortable).sublist
        (List.Sublist.map read List.filter_sublist))
    have kept : (items.mergeSort le).filter keep = (items.filter keep).mergeSort le := by
      apply filter_mergeSort_of_mem
      · intro first isFirst second isSecond third isThird
        exact inOrder_trans orderlyRows sortable _ (List.mem_map_of_mem isFirst) _
          (List.mem_map_of_mem isSecond) _ (List.mem_map_of_mem isThird)
      · intro first isFirst second isSecond
        exact inOrder_total orderlyRows _ (List.mem_map_of_mem isFirst) _
          (List.mem_map_of_mem isSecond)
    rw [sortableKept, notNaN (List.filter_subset_self items), Bool.not_true,
      if_neg Bool.false_ne_true, if_neg Bool.false_ne_true, kept, mapped]

/-- The same for several fields. -/
theorem sortByAll_map {α : Type} {read : α → Record} {items : List α}
    {directives : List SortDirective}
    (orderly : ∀ directive ∈ directives, ∀ item ∈ items,
      ((read item).get directive.field).Orderly)
    (done : sortByAll directives (items.map read) = .ok sorted) :
    ∃ arranged : List α, arranged.Perm items ∧ sorted = arranged.map read ∧
      ∀ keep : α → Bool, sortByAll directives ((items.filter keep).map read) =
        .ok ((arranged.filter keep).map read) := by
  unfold sortByAll at done ⊢
  replace orderly : ∀ directive ∈ directives.reverse, ∀ item ∈ items,
      ((read item).get directive.field).Orderly := by
    intro directive member
    exact orderly directive (List.mem_reverse.mp member)
  generalize directives.reverse = directives at done orderly ⊢
  induction directives generalizing items with
  | nil =>
      cases done
      exact ⟨items, List.Perm.refl items, rfl, fun _ => rfl⟩
  | cons directive rest induction =>
      rw [List.foldlM_cons, bind_eq_ok] at done
      obtain ⟨once, first, others⟩ := done
      rw [List.forall_mem_cons] at orderly
      obtain ⟨arranged, perm, rfl, kept⟩ := sortBy_map orderly.1 first
      obtain ⟨final, permLater, isSorted, keptLater⟩ := induction others fun later member item isItem =>
        orderly.2 later member item (perm.subset isItem)
      refine ⟨final, permLater.trans perm, isSorted, fun keep => ?_⟩
      rw [List.foldlM_cons, bind_eq_ok]
      exact ⟨_, kept keep, keptLater keep⟩

theorem sortBy_filter (orderly : ∀ row ∈ rows, (row.get field).Orderly)
    (done : sortBy field direction rows = .ok sorted) (keep : Record → Bool) :
    sortBy field direction (rows.filter keep) = .ok (sorted.filter keep) := by
  rw [← List.map_id rows] at done
  obtain ⟨arranged, _, rfl, kept⟩ := sortBy_map orderly done
  simpa using kept keep

/-- Rows can be left out before they are sorted by several fields or afterwards. -/
theorem sortByAll_filter {directives : List SortDirective}
    (orderly : ∀ directive ∈ directives, ∀ row ∈ rows, (row.get directive.field).Orderly)
    (done : sortByAll directives rows = .ok sorted) (keep : Record → Bool) :
    sortByAll directives (rows.filter keep) = .ok (sorted.filter keep) := by
  rw [← List.map_id rows] at done
  obtain ⟨arranged, _, rfl, kept⟩ := sortByAll_map orderly done
  simpa using kept keep

end Record

end ResourceServer
