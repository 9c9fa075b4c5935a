import ResourceServer.Proofs.Memory.Sorting
import ResourceServer.Proofs.Sql.Typing

/-!
# Sorting by several fields

The store in memory sorts by the last field first and goes on to the first one; since each sort
is stable, the outcome is sorted by the first field in which two rows differ.  A database sorts
by this order at once.  Where the fields hold numbers or texts of their columns, null coming
first, both orders of values are the same.
-/

namespace ResourceServer

namespace Value

/-- Whether a value is a whole number, a flag or null. -/
def isNumeric : Value → Bool
  | .null => true
  | .bool _ => true
  | .int _ => true
  | _ => false

/-- Whether a value is a text or null. -/
def isTextual : Value → Bool
  | .null => true
  | .text _ => true
  | _ => false

/-- Whether two values are both numbers or both texts, or null. -/
def alike (left right : Value) : Bool :=
  left.isNumeric && right.isNumeric || left.isTextual && right.isTextual

theorem orderly_of_isNumeric {value : Value} (numeric : value.isNumeric = true) :
    value.Orderly := by
  cases value with
  | null => exact .null
  | bool flag => exact .number rfl rfl
  | int number => exact .number rfl rfl
  | _ => cases numeric

theorem orderly_of_isTextual {value : Value} (textual : value.isTextual = true) :
    value.Orderly := by
  cases value with
  | null => exact .null
  | text spelled => exact .text spelled
  | _ => cases textual

end Value

namespace Sql

/-! ## Cells in the order of their values -/

section Cells

variable {left right : Value}

/-- Alike values that are not null are two whole numbers or two texts. -/
theorem alike_cases (alike : left.alike right = true) :
    (left = .null ∧ (Cell.ofPlain right).isNull = right.isNull) ∨
      (right = .null ∧ (Cell.ofPlain left).isNull = false ∧ left.isNull = false) ∨
      (∃ first second : Int, Cell.ofPlain left = .integer first ∧ Cell.ofPlain right = .integer second ∧
        left.isNull = false ∧ right.isNull = false ∧
        left.compareWith right = .ordered (compare first second) ∧
        left.same right = (compare first second == .eq)) ∨
      ∃ first second, left = .text first ∧ right = .text second := by
  cases left with
  | null =>
      left
      refine ⟨rfl, ?_⟩
      cases right <;> first | rfl | cases alike
  | bool first =>
      cases right with
      | null => exact .inr (.inl ⟨rfl, rfl, rfl⟩)
      | bool second => exact .inr (.inr (.inl ⟨_, _, rfl, rfl, rfl, rfl, rfl, rfl⟩))
      | int second => exact .inr (.inr (.inl ⟨_, _, rfl, rfl, rfl, rfl, rfl, rfl⟩))
      | _ => cases alike
  | int first =>
      cases right with
      | null => exact .inr (.inl ⟨rfl, rfl, rfl⟩)
      | bool second => exact .inr (.inr (.inl ⟨_, _, rfl, rfl, rfl, rfl, rfl, rfl⟩))
      | int second => exact .inr (.inr (.inl ⟨_, _, rfl, rfl, rfl, rfl, rfl, rfl⟩))
      | _ => cases alike
  | text first =>
      cases right with
      | null => exact .inr (.inl ⟨rfl, rfl, rfl⟩)
      | text second => exact .inr (.inr (.inr ⟨first, second, rfl, rfl⟩))
      | _ => cases alike
  | _ => cases alike

theorem orderly_of_alike (alike : left.alike right = true) : left.Orderly ∧ right.Orderly := by
  rw [Value.alike, Bool.or_eq_true, Bool.and_eq_true, Bool.and_eq_true] at alike
  cases alike with
  | inl numeric =>
      exact ⟨Value.orderly_of_isNumeric numeric.1, Value.orderly_of_isNumeric numeric.2⟩
  | inr textual =>
      exact ⟨Value.orderly_of_isTextual textual.1, Value.orderly_of_isTextual textual.2⟩

theorem ofPlain_null : Cell.ofPlain .null = .null := rfl

theorem order_null (cell : Cell) :
    Cell.null.order cell = (if cell.isNull then .eq else .lt) ∧
      cell.order .null = if cell.isNull then .eq else .gt := by
  cases cell <;> exact ⟨rfl, rfl⟩

/-- The cells of alike values stand in the order in which the values are sorted. -/
theorem precedes_eq (alike : left.alike right = true) :
    left.precedes right = ((Cell.ofPlain left).order (Cell.ofPlain right) == .lt) := by
  obtain ⟨leftOrderly, rightOrderly⟩ := orderly_of_alike alike
  rcases alike_cases alike with ⟨rfl, empty⟩ | ⟨rfl, full, _⟩ |
      ⟨first, second, leftCell, rightCell, leftSome, rightSome, compares, _⟩ | ⟨first, second, rfl, rfl⟩
  · rw [Value.precedes_null_left, ofPlain_null, (order_null _).1, empty]
    cases right.isNull <;> rfl
  · rw [Value.precedes_null_right, ofPlain_null, (order_null _).2, full]
    rfl
  · rw [Bool.eq_iff_iff, leftOrderly.precedes_iff rightOrderly leftSome rightSome, compares, leftCell,
      rightCell]
    simp [Cell.order]
  · rw [Bool.eq_iff_iff, leftOrderly.precedes_iff rightOrderly rfl rfl]
    simp [Cell.order, Cell.ofPlain, Value.compareWith, Value.compareAtoms]

theorem order_swap (alike : left.alike right = true) :
    (Cell.ofPlain right).order (Cell.ofPlain left) =
      ((Cell.ofPlain left).order (Cell.ofPlain right)).swap := by
  rcases alike_cases alike with ⟨rfl, empty⟩ | ⟨rfl, full, _⟩ |
      ⟨first, second, leftCell, rightCell, _⟩ | ⟨first, second, rfl, rfl⟩
  · rw [ofPlain_null, (order_null _).1, (order_null _).2, empty]
    cases right.isNull <;> rfl
  · rw [ofPlain_null, (order_null _).1, (order_null _).2, full]
    rfl
  · rw [leftCell, rightCell, Cell.order, Cell.order]
    exact Std.OrientedCmp.eq_swap
  · rw [Cell.ofPlain, Cell.ofPlain, Cell.order, Cell.order]
    exact Std.OrientedCmp.eq_swap

theorem isSortableWith_of_alike (alike : left.alike right = true) :
    left.isSortableWith right = true := by
  rcases alike_cases alike with ⟨rfl, _⟩ | ⟨rfl, _⟩ | ⟨first, second, _, _, _, _, compares, _⟩ |
      ⟨first, second, rfl, rfl⟩
  · rfl
  · simp [Value.isSortableWith, Value.isNull]
  · simp [Value.isSortableWith, compares]
  · simp [Value.isSortableWith, Value.compareWith, Value.compareAtoms]

end Cells

/-! ## Stable sorting -/

theorem pairwise_mergeSort_of_mem {α : Type} {le : α → α → Bool} {items : List α}
    (trans : ∀ first ∈ items, ∀ second ∈ items, ∀ third ∈ items, le first second = true →
      le second third = true → le first third = true)
    (total : ∀ first ∈ items, ∀ second ∈ items, (le first second || le second first) = true) :
    (items.mergeSort le).Pairwise fun first second => le first second = true := by
  let leMember := fun first second : { item // item ∈ items } => le first.1 second.1
  have detached : (items.attach.mergeSort leMember).map Subtype.val =
      (items.attach.map Subtype.val).mergeSort le := List.map_mergeSort fun _ _ _ _ => rfl
  have sorted : (items.attach.mergeSort leMember).Pairwise fun first second =>
      leMember first second = true :=
    List.pairwise_mergeSort
      (fun first second third => trans first.1 first.2 second.1 second.2 third.1 third.2)
      (fun first second => total first.1 first.2 second.1 second.2) items.attach
  rw [List.attach_map_subtype_val] at detached
  rw [← detached, List.pairwise_map]
  exact sorted

/-- A stable sort keeps a relation between earlier and later items where it ties. -/
theorem pairwise_mergeSort_stable {α : Type} {le : α → α → Bool} {relation : α → α → Prop}
    {items : List α}
    (trans : ∀ first ∈ items, ∀ second ∈ items, ∀ third ∈ items, le first second = true →
      le second third = true → le first third = true)
    (total : ∀ first ∈ items, ∀ second ∈ items, (le first second || le second first) = true)
    (related : items.Pairwise relation) :
    (items.mergeSort le).Pairwise fun first second =>
      le first second = true ∧ (le second first = true → relation first second) := by
  have inItems : ∀ item ∈ items.mergeSort le, item ∈ items := fun item => List.mem_mergeSort.mp
  have sorted := pairwise_mergeSort_of_mem trans total
  rw [List.pairwise_iff_forall_sublist]
  intro first second pair
  have before : le first second = true := List.pairwise_iff_forall_sublist.mp sorted pair
  refine ⟨before, fun after => ?_⟩
  have isFirst : first ∈ items := inItems first (pair.subset (by simp))
  have isSecond : second ∈ items := inItems second (pair.subset (by simp))
  -- The items that tie with the first one stand as they stood before the sort.
  let ties := fun item => le first item && le item first
  have reflexive : ∀ item ∈ items, le item item = true := by
    intro item member
    have self := total item member item member
    rwa [Bool.or_self] at self
  have tied : (items.filter ties).Pairwise fun first second => le first second = true := by
    rw [List.pairwise_iff_forall_sublist]
    intro one other inTies
    have isOne := List.mem_filter.mp (inTies.subset List.mem_cons_self)
    have isOther := List.mem_filter.mp (inTies.subset (List.mem_cons_of_mem one List.mem_cons_self))
    have oneFirst := (Bool.and_eq_true _ _).mp isOne.2
    have firstOther := (Bool.and_eq_true _ _).mp isOther.2
    exact trans one isOne.1 first isFirst other isOther.1 oneFirst.2 firstOther.1
  have kept : (items.mergeSort le).filter ties = items.filter ties := by
    rw [filter_mergeSort_of_mem trans total, List.mergeSort_of_pairwise tied]
  have filtered := pair.filter ties
  have passes : [first, second].filter ties = [first, second] := by
    simp [ties, before, after, reflexive first isFirst]
  rw [passes, kept] at filtered
  exact List.pairwise_iff_forall_sublist.mp related (filtered.trans List.filter_sublist)

/-! ## Several fields -/

/-- The order of two values in a direction, given their order in the other one. -/
def directed : SortDirection → Ordering → Ordering
  | .ascending, ordering => ordering
  | .descending, ordering => ordering.swap

/-- The order of two rows by the first field in which they differ. -/
def recordOrder : List SortDirective → Record → Record → Ordering
  | [], _, _ => .eq
  | directive :: rest, left, right =>
      (directed directive.direction ((Cell.ofPlain (left.get directive.field)).order
        (Cell.ofPlain (right.get directive.field)))).then (recordOrder rest left right)

theorem recordOrder_append (directives others : List SortDirective) (left right : Record) :
    recordOrder (directives ++ others) left right =
      (recordOrder directives left right).then (recordOrder others left right) := by
  induction directives with
  | nil => rfl
  | cons directive directives induction =>
      rw [List.cons_append, recordOrder, recordOrder, induction, Ordering.then_assoc]

/-- Whether any two rows hold alike values in a field. -/
def Uniform (field : String) (rows : List Record) : Prop :=
  ∀ row ∈ rows, ∀ other ∈ rows, (row.get field).alike (other.get field) = true

section Fields

variable {field : String} {rows : List Record}

theorem inOrder_iff {direction : SortDirection} {left right : Record}
    (alike : (left.get field).alike (right.get field) = true) :
    Record.inOrder field direction left right = true ↔
      directed direction ((Cell.ofPlain (left.get field)).order (Cell.ofPlain (right.get field))) ≠
        .gt := by
  have symm : (right.get field).alike (left.get field) = true := by
    rw [Value.alike, Bool.and_comm, Bool.and_comm (Value.isTextual _)]
    exact alike
  have swap := order_swap alike
  cases direction with
  | ascending =>
      rw [Record.inOrder, precedes_eq symm, swap, directed]
      cases (Cell.ofPlain (left.get field)).order (Cell.ofPlain (right.get field)) <;> decide
  | descending =>
      rw [Record.inOrder, precedes_eq alike, directed]
      cases (Cell.ofPlain (left.get field)).order (Cell.ofPlain (right.get field)) <;> decide

theorem areSortable_of_uniform (uniform : Uniform field rows) :
    Record.areSortable field rows = true := by
  rw [Record.areSortable_iff, List.pairwise_iff_forall_sublist]
  intro row other pair
  exact isSortableWith_of_alike (uniform row (pair.subset (by simp)) other (pair.subset (by simp)))

/-- Sorting by one more field in front of those that rows are sorted by. -/
theorem sortBy_sorted (direction : SortDirection) (uniform : Uniform field rows) {later : List SortDirective}
    (sorted : rows.Pairwise fun row other => recordOrder later row other ≠ .gt) :
    ∃ result, Record.sortBy field direction rows = .ok result ∧ result.Perm rows ∧
      result.Pairwise fun row other =>
        recordOrder (⟨field, direction⟩ :: later) row other ≠ .gt := by
  have orderly : ∀ row ∈ rows, (row.get field).Orderly :=
    fun row member => (orderly_of_alike (uniform row member row member)).1
  have sortable := areSortable_of_uniform uniform
  have noNaN : (rows.any fun row => (Record.get row field).isNaN) = false := by
    rw [List.any_eq_false]
    intro row member
    rw [(orderly row member).isNaN_eq_false]
    exact Bool.false_ne_true
  have perm := List.mergeSort_perm rows (Record.inOrder field direction)
  refine ⟨rows.mergeSort (Record.inOrder field direction), ?_, perm, ?_⟩
  · rw [Record.sortBy, sortable, noNaN]
    rfl
  · have trans := @Record.inOrder_trans field direction rows orderly sortable
    have total := @Record.inOrder_total field direction rows orderly
    have stable := pairwise_mergeSort_stable trans total sorted
    refine stable.imp_of_mem fun {row other} isRow isOther inOrder => ?_
    have alike := uniform row (perm.subset isRow) other (perm.subset isOther)
    have symm := uniform other (perm.subset isOther) row (perm.subset isRow)
    have before := (inOrder_iff alike).mp inOrder.1
    have swap := order_swap alike
    rw [recordOrder]
    cases order : directed direction
        ((Cell.ofPlain (row.get field)).order (Cell.ofPlain (other.get field))) with
    | lt => exact Ordering.noConfusion
    | gt => exact absurd order before
    | eq =>
        apply inOrder.2
        rw [inOrder_iff symm, swap]
        cases direction <;>
          cases same : (Cell.ofPlain (row.get field)).order (Cell.ofPlain (other.get field)) <;>
          rw [same] at order <;> cases order <;> decide

/-- Sorting by several fields sorts by the first one in which rows differ. -/
theorem sortByAll_sorted {directives later : List SortDirective}
    (uniform : ∀ directive ∈ directives, Uniform directive.field rows)
    (sorted : rows.Pairwise fun row other => recordOrder later row other ≠ .gt) :
    ∃ result, Record.sortByAll directives rows = .ok result ∧ result.Perm rows ∧
      result.Pairwise fun row other => recordOrder (directives ++ later) row other ≠ .gt := by
  induction directives with
  | nil => exact ⟨rows, rfl, List.Perm.refl rows, sorted⟩
  | cons directive directives induction =>
      rw [List.forall_mem_cons] at uniform
      obtain ⟨others, done, perm, sortedOthers⟩ := induction uniform.2
      have uniformOthers : Uniform directive.field others := fun row isRow other isOther =>
        uniform.1 row (perm.subset isRow) other (perm.subset isOther)
      obtain ⟨result, last, permLast, sortedLast⟩ :=
        sortBy_sorted directive.direction uniformOthers sortedOthers
      refine ⟨result, ?_, permLast.trans perm, sortedLast⟩
      unfold Record.sortByAll at done ⊢
      rw [List.reverse_cons, List.foldlM_append, done]
      change Record.sortBy directive.field directive.direction others >>= pure = _
      rw [last]
      rfl

theorem directed_swap (direction : SortDirection) (ordering : Ordering) :
    directed direction ordering.swap = (directed direction ordering).swap := by
  cases direction <;> rfl

theorem recordOrder_swap {directives : List SortDirective} {left right : Record}
    (alike : ∀ directive ∈ directives,
      (left.get directive.field).alike (right.get directive.field) = true) :
    recordOrder directives right left = (recordOrder directives left right).swap := by
  induction directives with
  | nil => rfl
  | cons directive directives induction =>
      rw [List.forall_mem_cons] at alike
      rw [recordOrder, recordOrder, order_swap alike.1, directed_swap, induction alike.2,
        Ordering.swap_then]

/-- Rows that hold alike values in the fields are in a total preorder. -/
theorem recordOrder_trans {directives : List SortDirective}
    (uniform : ∀ directive ∈ directives, Uniform directive.field rows) :
    ∀ first ∈ rows, ∀ second ∈ rows, ∀ third ∈ rows,
      recordOrder directives first second ≠ .gt → recordOrder directives second third ≠ .gt →
        recordOrder directives first third ≠ .gt := by
  induction directives with
  | nil => exact fun first _ second _ third _ _ _ => Ordering.noConfusion
  | cons directive directives induction =>
      rw [List.forall_mem_cons] at uniform
      intro first isFirst second isSecond third isThird
      have others := induction uniform.2 first isFirst second isSecond third isThird
      -- What one field says: it orders the rows, and ties of the outer two are ties of all three.
      have orderly : ∀ row ∈ rows, (row.get directive.field).Orderly :=
        fun row isRow => (orderly_of_alike (uniform.1 row isRow row isRow)).1
      have sortable := areSortable_of_uniform uniform.1
      have step := @Record.inOrder_trans directive.field directive.direction rows orderly sortable
      have trans := step first isFirst second isSecond third isThird
      have back := step third isThird first isFirst second isSecond
      have forth := step second isSecond third isThird first isFirst
      have swapOne := order_swap (uniform.1 first isFirst second isSecond)
      have swapTwo := order_swap (uniform.1 second isSecond third isThird)
      have swapAll := order_swap (uniform.1 first isFirst third isThird)
      rw [inOrder_iff (uniform.1 first isFirst second isSecond),
        inOrder_iff (uniform.1 second isSecond third isThird),
        inOrder_iff (uniform.1 first isFirst third isThird)] at trans
      rw [inOrder_iff (uniform.1 third isThird first isFirst),
        inOrder_iff (uniform.1 first isFirst second isSecond),
        inOrder_iff (uniform.1 third isThird second isSecond), swapAll, swapTwo, directed_swap,
        directed_swap] at back
      rw [inOrder_iff (uniform.1 second isSecond third isThird),
        inOrder_iff (uniform.1 third isThird first isFirst),
        inOrder_iff (uniform.1 second isSecond first isFirst), swapAll, swapOne, directed_swap,
        directed_swap] at forth
      unfold recordOrder
      revert trans back forth
      generalize directed directive.direction _ = one
      generalize directed directive.direction _ = two
      generalize directed directive.direction _ = all
      intro trans back forth
      cases one <;> cases two <;> cases all <;> simp_all

end Fields

end Sql

end ResourceServer
