import ResourceServer.Proofs.Resolution.Memory
import ResourceServer.Proofs.Sql.Ordering
import ResourceServer.Proofs.Storing

/-!
# Arrangement of results

A result is sorted by one field after another, the last one first.  What comes out is the one
arrangement of the selected rows that ascends in lexicographic order by the fields and at last by
the key.  No two rows tie in this order when their keys are different, so the arrangement depends
on the rows only, and not on the order in which the table lists them.
-/

namespace ResourceServer

/-! ## Values of one kind -/

/-- The kinds of values that have an order. -/
inductive SortKind
  | integer
  | text
  | flag
deriving DecidableEq, Repr

/-- Whether a value is of a kind, or null. -/
def SortKind.admits : SortKind → Value → Bool
  | _, .null => true
  | .integer, .int _ => true
  | .text, .text _ => true
  | .flag, .bool _ => true
  | _, _ => false

/-- The order of two values of one kind: null comes first, and false before true. -/
def Value.order : Value → Value → Ordering
  | .null, .null => .eq
  | .null, _ => .lt
  | _, .null => .gt
  | .int left, .int right => compare left right
  | .text left, .text right => compare left right
  | .bool left, .bool right => compare left right
  | _, _ => .eq

/-- The order of two rows by the first directive that tells them apart; a descending one turns the
order of its values around. -/
def Record.order : List SortDirective → Record → Record → Ordering
  | [], _, _ => .eq
  | directive :: rest, left, right =>
      let byField := (left.get directive.field).order (right.get directive.field)
      (match directive.direction with
        | .ascending => byField
        | .descending => byField.swap).then (order rest left right)

section Kinds

variable {kind : SortKind} {left right : Value}

/-- Two values of one kind are two whole numbers, two texts or two flags, unless one is null. -/
theorem SortKind.cases_of_admits (isLeft : kind.admits left = true)
    (isRight : kind.admits right = true) :
    left = .null ∨ right = .null ∨ (∃ first second, left = .int first ∧ right = .int second) ∨
      (∃ first second, left = .text first ∧ right = .text second) ∨
        ∃ first second, left = .bool first ∧ right = .bool second := by
  cases kind with
  | integer =>
      cases left with
      | null => exact .inl rfl
      | int first =>
          cases right with
          | null => exact .inr (.inl rfl)
          | int second => exact .inr (.inr (.inl ⟨first, second, rfl, rfl⟩))
          | _ => cases isRight
      | _ => cases isLeft
  | text =>
      cases left with
      | null => exact .inl rfl
      | text first =>
          cases right with
          | null => exact .inr (.inl rfl)
          | text second => exact .inr (.inr (.inr (.inl ⟨first, second, rfl, rfl⟩)))
          | _ => cases isRight
      | _ => cases isLeft
  | flag =>
      cases left with
      | null => exact .inl rfl
      | bool first =>
          cases right with
          | null => exact .inr (.inl rfl)
          | bool second => exact .inr (.inr (.inr (.inr ⟨first, second, rfl, rfl⟩)))
          | _ => cases isRight
      | _ => cases isLeft

theorem SortKind.isTextual_or_isNumeric {value : Value} (admits : kind.admits value = true) :
    (if kind = .text then value.isTextual else value.isNumeric) = true := by
  cases kind <;> cases value <;> first | rfl | cases admits

theorem SortKind.alike (isLeft : kind.admits left = true) (isRight : kind.admits right = true) :
    left.alike right = true := by
  have leftKind := isTextual_or_isNumeric isLeft
  have rightKind := isTextual_or_isNumeric isRight
  rw [Value.alike]
  by_cases textual : kind = .text
  · rw [if_pos textual] at leftKind rightKind
    rw [leftKind, rightKind, Bool.and_true, Bool.or_true]
  · rw [if_neg textual] at leftKind rightKind
    rw [leftKind, rightKind, Bool.and_true, Bool.true_or]

/-- Values of one kind stand in the order of their cells. -/
theorem Value.order_eq_cells (isLeft : kind.admits left = true)
    (isRight : kind.admits right = true) :
    left.order right = (Sql.Cell.ofPlain left).order (Sql.Cell.ofPlain right) := by
  obtain rfl | rfl | ⟨first, second, rfl, rfl⟩ | ⟨first, second, rfl, rfl⟩ |
    ⟨first, second, rfl, rfl⟩ := SortKind.cases_of_admits isLeft isRight
  · cases kind <;> cases right <;> first | rfl | cases isRight
  · cases kind <;> cases left <;> first | rfl | cases isLeft
  · rfl
  · rfl
  · cases first <;> cases second <;> rfl

/-- Values of one kind tie only when they are the same. -/
theorem Value.eq_of_order (isLeft : kind.admits left = true) (isRight : kind.admits right = true)
    (ties : left.order right = .eq) : left = right := by
  obtain rfl | rfl | ⟨first, second, rfl, rfl⟩ | ⟨first, second, rfl, rfl⟩ |
    ⟨first, second, rfl, rfl⟩ := SortKind.cases_of_admits isLeft isRight
  · cases right <;> first | rfl | cases ties
  · cases left <;> first | rfl | cases ties
  · exact congrArg Value.int (Std.LawfulEqOrd.eq_of_compare ties)
  · exact congrArg Value.text (Std.LawfulEqOrd.eq_of_compare ties)
  · exact congrArg Value.bool (Std.LawfulEqOrd.eq_of_compare ties)

end Kinds

/-! ## Rows -/

/-- The rows hold values of one kind in every field that they are sorted by. -/
def Record.SortedAlike (directives : List SortDirective) (rows : List Record) : Prop :=
  ∀ directive ∈ directives, ∃ kind : SortKind, ∀ row ∈ rows,
    kind.admits (row.get directive.field) = true

section Rows

variable {directives : List SortDirective} {rows : List Record}

theorem Record.SortedAlike.uniform (alike : Record.SortedAlike directives rows) :
    ∀ directive ∈ directives, Sql.Uniform directive.field rows := by
  intro directive isDirective row isRow other isOther
  obtain ⟨kind, admits⟩ := alike directive isDirective
  exact SortKind.alike (admits row isRow) (admits other isOther)

theorem Record.order_eq_recordOrder (alike : Record.SortedAlike directives rows) :
    ∀ left ∈ rows, ∀ right ∈ rows,
      Record.order directives left right = Sql.recordOrder directives left right := by
  intro left isLeft right isRight
  induction directives with
  | nil => rfl
  | cons directive rest induction =>
      obtain ⟨first, others⟩ := List.forall_mem_cons.mp alike
      obtain ⟨kind, admits⟩ := first
      rw [Record.order, Sql.recordOrder, induction others,
        Value.order_eq_cells (admits left isLeft) (admits right isRight)]
      cases directive.direction with
      | ascending => rfl
      | descending => rfl

/-- Rows tie only when they hold the same in every field that they are sorted by. -/
theorem Record.get_eq_of_order (alike : Record.SortedAlike directives rows) {left right : Record}
    (isLeft : left ∈ rows) (isRight : right ∈ rows)
    (ties : Record.order directives left right = .eq) :
    ∀ directive ∈ directives, left.get directive.field = right.get directive.field := by
  induction directives with
  | nil => exact nofun
  | cons directive rest induction =>
      obtain ⟨⟨kind, admits⟩, others⟩ := List.forall_mem_cons.mp alike
      rw [Record.order, Ordering.then_eq_eq] at ties
      refine List.forall_mem_cons.mpr ⟨?_, induction others ties.2⟩
      refine Value.eq_of_order (admits left isLeft) (admits right isRight) ?_
      cases direction : directive.direction with
      | ascending => simpa [direction] using ties.1
      | descending => simpa [direction] using ties.1

theorem Record.order_swap (alike : Record.SortedAlike directives rows) {left right : Record}
    (isLeft : left ∈ rows) (isRight : right ∈ rows) :
    Record.order directives right left = (Record.order directives left right).swap := by
  rw [Record.order_eq_recordOrder alike right isRight left isLeft,
    Record.order_eq_recordOrder alike left isLeft right isRight]
  refine Sql.recordOrder_swap fun directive isDirective => ?_
  exact alike.uniform directive isDirective left isLeft right isRight

/-- Only one arrangement of some rows ascends. -/
theorem Record.arrangement_unique (alike : Record.SortedAlike directives rows)
    {first second : List Record} (isFirst : first.Perm rows) (isSecond : second.Perm rows)
    (firstAscends : first.Pairwise fun left right => Record.order directives left right = .lt)
    (secondAscends : second.Pairwise fun left right => Record.order directives left right = .lt) :
    first = second := by
  refine List.Perm.eq_of_pairwise ?_ firstAscends secondAscends (isFirst.trans isSecond.symm)
  intro left right inFirst inSecond before after
  rw [Record.order_swap alike (isFirst.subset inFirst) (isSecond.subset inSecond), before] at after
  cases after

end Rows

/-! ## Results -/

/-- The order of a specification: by its directives, and by the ascending key at last. -/
def QuerySpec.directives (spec : QuerySpec) : List SortDirective :=
  spec.sorts ++ [⟨spec.resource.keyName, .ascending⟩]

/-- The rows are arranged in the order of a specification, and no two of them tie. -/
structure QuerySpec.Arranges (spec : QuerySpec) (rows arranged : List Record) : Prop where
  perm : arranged.Perm rows
  ascends : arranged.Pairwise fun left right => Record.order spec.directives left right = .lt

namespace Contents

/-- The rows of a table can be arranged: their keys are different values of one kind, and every
column that they are sorted by holds values of one kind.  A field may also be a count, as long as
the key column is none. -/
structure Arrangeable (contents : Contents) (spec : QuerySpec) : Prop where
  uncounted : spec.resource.keyName ∉ spec.aggregateAliases
  complete : ∀ row ∈ (contents.table spec.resource.name).rows,
    Record.has row spec.resource.keyName = true
  distinct : (contents.table spec.resource.name).rows.Pairwise fun left right =>
    left.get spec.resource.keyName ≠ right.get spec.resource.keyName
  alike : ∀ directive ∈ spec.directives, directive.field ∉ spec.aggregateAliases →
    ∃ kind : SortKind, ∀ row ∈ (contents.table spec.resource.name).rows,
      kind.admits (row.get directive.field) = true

/-- The same rows in every table, in whatever order. -/
def SameRows (contents others : Contents) : Prop :=
  ∀ name, (contents.table name).rows.Perm (others.table name).rows

variable {registry : Registry} {contents others : Contents} {spec : QuerySpec}
variable {rows selected : List Record}

/-- A row is left out or chosen with its counts. -/
def Picks (registry : Registry) (contents : Contents) (spec : QuerySpec) (row : Record)
    (chosen : List Record) : Prop :=
  rowMatches spec row = .ok false ∧ chosen = [] ∨
    rowMatches spec row = .ok true ∧ ∃ counted,
      withCounts registry contents spec row = .ok counted ∧ chosen = [counted]

theorem selectRows_cons_eq_picks {row : Record} :
    selectRows registry contents spec (row :: rows) = .ok selected ↔
      ∃ chosen later, Picks registry contents spec row chosen ∧
        selectRows registry contents spec rows = .ok later ∧ selected = chosen ++ later := by
  rw [selectRows_cons_eq_ok]
  constructor
  · rintro (⟨unmatched, done⟩ | ⟨matching, counted, later, counts, goesOn, rfl⟩)
    · exact ⟨[], selected, .inl ⟨unmatched, rfl⟩, done, rfl⟩
    · exact ⟨[counted], later, .inr ⟨matching, counted, counts, rfl⟩, goesOn, rfl⟩
  · rintro ⟨_, later, ⟨unmatched, rfl⟩ | ⟨matching, counted, counts, rfl⟩, goesOn, rfl⟩
    · exact .inl ⟨unmatched, goesOn⟩
    · exact .inr ⟨matching, counted, later, counts, goesOn, rfl⟩

/-- Whatever the order of the rows, the same ones are selected. -/
theorem selectRows_perm {listed : List Record} (perm : rows.Perm listed)
    (done : selectRows registry contents spec rows = .ok selected) :
    ∃ chosen, selectRows registry contents spec listed = .ok chosen ∧ chosen.Perm selected := by
  induction perm generalizing selected with
  | nil => exact ⟨selected, done, .refl selected⟩
  | cons row _ induction =>
      obtain ⟨picked, later, picks, goesOn, rfl⟩ := selectRows_cons_eq_picks.mp done
      obtain ⟨chosen, isChosen, same⟩ := induction goesOn
      have goesOn := selectRows_cons_eq_picks.mpr ⟨picked, chosen, picks, isChosen, rfl⟩
      exact ⟨picked ++ chosen, goesOn, same.append_left picked⟩
  | swap first second rest =>
      obtain ⟨picked, _, picks, goesOn, rfl⟩ := selectRows_cons_eq_picks.mp done
      obtain ⟨other, later, picksOther, ends, rfl⟩ := selectRows_cons_eq_picks.mp goesOn
      refine ⟨other ++ (picked ++ later), ?_, List.perm_append_comm_assoc other picked later⟩
      have others := selectRows_cons_eq_picks.mpr ⟨picked, later, picks, ends, rfl⟩
      exact selectRows_cons_eq_picks.mpr ⟨other, _, picksOther, others, rfl⟩
  | trans _ _ first second =>
      obtain ⟨middle, isMiddle, same⟩ := first done
      obtain ⟨chosen, isChosen, sameAgain⟩ := second isMiddle
      exact ⟨chosen, isChosen, sameAgain.trans same⟩

/-- Counts do not depend on the order of the rows that are counted. -/
theorem withCounts_sameRows (same : contents.SameRows others) (row : Record) :
    withCounts registry contents spec row = withCounts registry others spec row := by
  have counts : ∀ name (test : Record → Bool),
      (contents.table name).rows.countP test = (others.table name).rows.countP test :=
    fun name test => (same name).countP_eq test
  simp only [withCounts, relatedCount, counts]

theorem selectRows_sameRows (same : contents.SameRows others) (rows : List Record) :
    selectRows registry contents spec rows = selectRows registry others spec rows := by
  induction rows with
  | nil => rfl
  | cons row rest induction => rw [selectRows, selectRows, withCounts_sameRows same, induction]

/-- The selected rows have the keys that they had in the table. -/
theorem keys_selected (uncounted : spec.resource.keyName ∉ spec.aggregateAliases)
    (done : selectRows registry contents spec rows = .ok selected) :
    (selected.map (Record.get · spec.resource.keyName)).Sublist
      (rows.map (Record.get · spec.resource.keyName)) := by
  induction rows generalizing selected with
  | nil =>
      cases done
      exact .slnil
  | cons row rest induction =>
      obtain ⟨_, later, ⟨_, rfl⟩ | ⟨_, counted, counts, rfl⟩, goesOn, rfl⟩ :=
        selectRows_cons_eq_picks.mp done
      · exact (induction goesOn).cons _
      · rw [List.singleton_append, List.map_cons, List.map_cons, key_withCounts uncounted counts]
        exact (induction goesOn).cons_cons _

/-- The selected rows hold values of one kind in each field that they are sorted by: a count is a
whole number, and any other field is as it was in the table. -/
theorem Arrangeable.alike_selected (arrangeable : contents.Arrangeable spec)
    (selection : selectRows registry contents spec (contents.table spec.resource.name).rows =
      .ok selected) : Record.SortedAlike spec.directives selected := by
  intro directive isDirective
  by_cases isCount : directive.field ∈ spec.aggregateAliases
  · refine ⟨.integer, fun counted isSelected => ?_⟩
    obtain ⟨row, _, _, counts⟩ := mem_selectRows selection isSelected
    obtain ⟨_, count, shown⟩ | ⟨uncounted, _⟩ := get_withCounts counts
    · rw [shown]
      rfl
    · exact absurd isCount uncounted
  · obtain ⟨kind, admits⟩ := arrangeable.alike directive isDirective isCount
    refine ⟨kind, fun counted isSelected => ?_⟩
    obtain ⟨row, inTable, _, counts⟩ := mem_selectRows selection isSelected
    obtain ⟨counted, _⟩ | ⟨_, kept⟩ := get_withCounts counts
    · exact absurd counted isCount
    · rw [kept]
      exact admits row inTable

/-- Rows that are sorted as far as they differ do not tie when their keys are different. -/
theorem Arrangeable.arranges (arrangeable : contents.Arrangeable spec)
    (selection : selectRows registry contents spec (contents.table spec.resource.name).rows =
      .ok selected) {arranged : List Record} (perm : arranged.Perm selected)
    (sorted : arranged.Pairwise fun left right =>
      Sql.recordOrder spec.directives left right ≠ .gt) : spec.Arranges selected arranged := by
  have alike := arrangeable.alike_selected selection
  have distinct : selected.Pairwise fun left right =>
      left.get spec.resource.keyName ≠ right.get spec.resource.keyName :=
    List.pairwise_map.mp ((List.pairwise_map.mpr arrangeable.distinct).sublist
      (keys_selected arrangeable.uncounted selection))
  have apart : arranged.Pairwise fun left right =>
      left.get spec.resource.keyName ≠ right.get spec.resource.keyName :=
    (perm.symm.pairwise_iff Ne.symm).mp distinct
  refine ⟨perm, (sorted.and apart).imp_of_mem ?_⟩
  rintro left right isLeft isRight ⟨notAfter, different⟩
  have inLeft := perm.subset isLeft
  have inRight := perm.subset isRight
  rw [← Record.order_eq_recordOrder alike left inLeft right inRight] at notAfter
  cases order : Record.order spec.directives left right with
  | lt => rfl
  | gt => exact absurd order notAfter
  | eq =>
      have same := Record.get_eq_of_order alike inLeft inRight order
        ⟨spec.resource.keyName, .ascending⟩ (List.mem_append_right _ (List.mem_singleton_self _))
      exact absurd same different

/-- Selected rows are sorted into an arrangement. -/
theorem Arrangeable.sorts (arrangeable : contents.Arrangeable spec)
    (selection : selectRows registry contents spec (contents.table spec.resource.name).rows =
      .ok selected) :
    ∃ byKey arranged, Record.sortBy spec.resource.keyName .ascending selected = .ok byKey ∧
      Record.sortByAll spec.sorts byKey = .ok arranged ∧ spec.Arranges selected arranged := by
  have uniform := (arrangeable.alike_selected selection).uniform
  obtain ⟨ofSorts, ofKey⟩ := List.forall_mem_append.mp uniform
  have unsorted : selected.Pairwise fun left right => Sql.recordOrder [] left right ≠ .gt :=
    List.pairwise_of_forall fun _ _ => Ordering.noConfusion
  have keysUniform : Sql.Uniform spec.resource.keyName selected :=
    ofKey _ (List.mem_singleton_self _)
  obtain ⟨byKey, keyed, keyPerm, keySorted⟩ := Sql.sortBy_sorted .ascending keysUniform unsorted
  have ofByKey : ∀ directive ∈ spec.sorts, Sql.Uniform directive.field byKey :=
    fun directive isDirective row isRow other isOther => ofSorts directive isDirective row
      (keyPerm.subset isRow) other (keyPerm.subset isOther)
  obtain ⟨arranged, sorting, perm, sorted⟩ := Sql.sortByAll_sorted ofByKey keySorted
  exact ⟨byKey, arranged, keyed, sorting,
    arrangeable.arranges selection (perm.trans keyPerm) sorted⟩

theorem Arrangeable.complete_selected (arrangeable : contents.Arrangeable spec)
    (selection : selectRows registry contents spec (contents.table spec.resource.name).rows =
      .ok selected) : ∀ row ∈ selected, Record.has row spec.resource.keyName = true := by
  intro counted isSelected
  obtain ⟨row, inTable, _, counts⟩ := mem_selectRows selection isSelected
  exact has_withCounts counts (arrangeable.complete row inTable)

theorem Arrangeable.sameRows (arrangeable : contents.Arrangeable spec)
    (same : contents.SameRows others) : others.Arrangeable spec where
  uncounted := arrangeable.uncounted
  complete row inTable := arrangeable.complete row ((same _).symm.subset inTable)
  distinct := ((same _).pairwise_iff Ne.symm).mp arrangeable.distinct
  alike directive isDirective uncounted := by
    obtain ⟨kind, admits⟩ := arrangeable.alike directive isDirective uncounted
    exact ⟨kind, fun row inTable => admits row ((same _).symm.subset inTable)⟩

/-- A window of a result is cut from the arrangement. -/
theorem Arrangeable.fetchRows_eq (arrangeable : contents.Arrangeable spec)
    (selection : selectRows registry contents spec (contents.table spec.resource.name).rows =
      .ok selected) {arranged : List Record} (isArrangement : spec.Arranges selected arranged)
    (offset limit : Option Int) :
    contents.fetchRows registry spec offset limit =
      .ok (window offset limit (arranged.map fun row => row.project (resultNames spec))) := by
  obtain ⟨byKey, sorted, keyed, sorting, sortedArranges⟩ := arrangeable.sorts selection
  have alike := arrangeable.alike_selected selection
  obtain rfl := Record.arrangement_unique alike isArrangement.perm sortedArranges.perm
    isArrangement.ascends sortedArranges.ascends
  refine fetchRows_eq_ok.mpr ⟨selected, byKey, arranged, selection,
    arrangeable.complete_selected selection, keyed, sorting, ?_⟩
  cases limit with
  | none => simp only [window, sliceFrom, List.length_map, List.map_drop]
  | some limit => simp only [window, sliceBetween, List.length_map, List.map_drop, List.map_take]

/-- However many directives there are, a result is the one arrangement of the selected rows in
lexicographic order, and a window is a slice of it.  The order in which tables list their rows makes
no difference. -/
theorem fetchRows_arranges (arrangeable : contents.Arrangeable spec)
    (selection : selectRows registry contents spec (contents.table spec.resource.name).rows =
      .ok selected) :
    ∃ arranged rows : List Record, spec.Arranges selected arranged ∧
      (∀ other, spec.Arranges selected other → other = arranged) ∧
      rows = arranged.map (fun row => row.project (resultNames spec)) ∧
      contents.fetchRows registry spec none none = .ok rows ∧
      (∀ offset limit,
        contents.fetchRows registry spec offset limit = .ok (window offset limit rows)) ∧
      (∀ offset limit : Nat, contents.fetchRows registry spec (some offset) (some limit) =
        .ok ((rows.drop offset).take limit)) ∧
      ∀ others, contents.SameRows others → ∀ offset limit,
        others.fetchRows registry spec offset limit =
          contents.fetchRows registry spec offset limit := by
  obtain ⟨_, arranged, _, _, isArrangement⟩ := arrangeable.sorts selection
  have fetches := arrangeable.fetchRows_eq selection isArrangement
  refine ⟨arranged, _, isArrangement, fun other isOther => ?_, rfl, ?_, fetches, ?_, ?_⟩
  · exact Record.arrangement_unique (arrangeable.alike_selected selection) isOther.perm
      isArrangement.perm isOther.ascends isArrangement.ascends
  · rw [fetches, window_none]
  · intro offset limit
    rw [fetches]
    exact congrArg Except.ok
      (sliceBetween_of_nonneg (Int.natCast_nonneg offset) (Int.natCast_nonneg limit) _)
  · intro others same offset limit
    rw [selectRows_sameRows same] at selection
    obtain ⟨chosen, selectionOthers, chosenPerm⟩ :=
      selectRows_perm (same spec.resource.name) selection
    have isOther : spec.Arranges chosen arranged :=
      ⟨isArrangement.perm.trans chosenPerm.symm, isArrangement.ascends⟩
    rw [fetches, (arrangeable.sameRows same).fetchRows_eq selectionOthers isOther]

/-- Rows that stand in the order of their keys, as far as these differ. -/
structure StandByKey (keyName : String) (rows : List Record) : Prop where
  complete : ∀ row ∈ rows, Record.has row keyName = true
  sortable : Record.areSortable keyName rows = true
  noNaN : (rows.any fun row => (Record.get row keyName).isNaN) = false
  ascending : rows.Pairwise fun left right => Record.inOrder keyName .ascending left right = true

/-- Rows that stand in the order of their keys already are listed as they stand. -/
theorem fetchRows_of_standByKey (unsorted : spec.sorts = [])
    (selection : selectRows registry contents spec (contents.table spec.resource.name).rows =
      .ok selected)
    (stand : StandByKey spec.resource.keyName selected) :
    contents.fetchRows registry spec none none =
      .ok (selected.map fun row => row.project (resultNames spec)) := by
  refine fetchRows_eq_ok.mpr ⟨selected, selected, selected, selection, stand.complete, ?_, ?_, ?_⟩
  · rw [Record.sortBy, stand.sortable, stand.noNaN, List.mergeSort_of_pairwise stand.ascending]
    rfl
  · rw [unsorted]
    rfl
  · rw [window_none]

/-! ## Samples -/

/-- Nodes with ranks: two children of the first one, and two nodes of the same rank. -/
def rankedTree : Contents where
  tables := [("nodes", [(.int 1, Samples.Library.nodeRow 1 "left" .null (.int 2)),
    (.int 2, Samples.Library.nodeRow 2 "right" (.int 1) .null),
    (.int 3, Samples.Library.nodeRow 3 "leaf" (.int 1) (.int 2)),
    (.int 4, Samples.Library.nodeRow 4 "root" .null (.int 3))])]

/-- Nodes with the most children first, and then those of the greatest rank. -/
def greatestFirst : QuerySpec where
  resource := Samples.Library.nodes
  aggregates := [⟨"children"⟩]
  sorts := [⟨"children_count", .descending⟩, ⟨"rank", .descending⟩]

theorem rankedTree_arrangeable : rankedTree.Arrangeable greatestFirst where
  uncounted := by decide
  complete := by decide +kernel
  distinct := by
    have keys : ([1, 2, 3, 4].map Value.int).Nodup :=
      List.Nodup.map (fun _ _ => Value.int.inj) (by decide)
    exact List.pairwise_map.mp keys
  alike := by
    intro directive isDirective _
    refine ⟨.integer, ?_⟩
    obtain rfl | rfl | rfl : directive = ⟨"children_count", .descending⟩ ∨
        directive = ⟨"rank", .descending⟩ ∨ directive = ⟨"id", .ascending⟩ := by
      simpa [QuerySpec.directives, greatestFirst, Samples.Library.nodes] using isDirective
    · decide +kernel
    · decide +kernel
    · decide +kernel

/-- The arrangement is known as soon as it is seen to ascend. -/
theorem fetchRows_arranges_ranked :
    let counted (row : Record) (count : Int) := row ++ [("children_count", Value.int count)]
    let first := counted (Samples.Library.nodeRow 1 "left" .null (.int 2)) 2
    let second := counted (Samples.Library.nodeRow 2 "right" (.int 1) .null) 0
    let third := counted (Samples.Library.nodeRow 3 "leaf" (.int 1) (.int 2)) 0
    let fourth := counted (Samples.Library.nodeRow 4 "root" .null (.int 3)) 0
    rankedTree.Arrangeable greatestFirst ∧
      selectRows ⟨[Samples.Library.nodes]⟩ rankedTree greatestFirst (rankedTree.table "nodes").rows =
        .ok [first, second, third, fourth] ∧
      greatestFirst.Arranges [first, second, third, fourth] [first, fourth, third, second] ∧
      ∀ others, rankedTree.SameRows others →
        others.fetchRows ⟨[Samples.Library.nodes]⟩ greatestFirst none none =
          .ok [first, fourth, third, second] := by
  intro counted first second third fourth
  have selection : selectRows ⟨[Samples.Library.nodes]⟩ rankedTree greatestFirst
      (rankedTree.table "nodes").rows = .ok [first, second, third, fourth] := by
    with_unfolding_all rfl
  have arranges : greatestFirst.Arranges [first, second, third, fourth]
      [first, fourth, third, second] :=
    ⟨.cons first (List.reverse_perm [second, third, fourth]), by decide +kernel⟩
  obtain ⟨arranged, rows, _, unique, isRows, fetched, _, _, sameRows⟩ :=
    fetchRows_arranges rankedTree_arrangeable selection
  refine ⟨rankedTree_arrangeable, selection, arranges, fun others same => ?_⟩
  rw [sameRows others same, fetched, isRows, ← unique _ arranges]
  with_unfolding_all rfl

/-- What is asked of the columns only: that each one holds values of one kind. -/
def OneKindEach (contents : Contents) (spec : QuerySpec) : Prop :=
  ∀ directive ∈ spec.directives, ∃ kind : SortKind,
    ∀ row ∈ (contents.table spec.resource.name).rows,
      kind.admits (row.get directive.field) = true

/-- Contents with these nodes only. -/
def ofNodes (table : Table) : Contents := { tables := [("nodes", table)] }

/-- A node that is filed under a key, with what it has in its key column. -/
def nodeUnder (key column : Int) (name : String) : Value × Record :=
  (.int key, Samples.Library.nodeRow column name .null .null)

/-- Nodes whose key column is named like the count of their siblings. -/
def countedNodes : Resource where
  name := "nodes"
  model := { name := "Node", table := "nodes"
             columns := [{ Samples.countedKey with name := "siblings_count" },
               Samples.optional "rank" .integer] }
  keyName := "siblings_count"
  relations := [Samples.hasMany "siblings" "nodes" "rank"]

/-- A node of a rank that no node has for its key. -/
def countedNode (key : Int) : Value × Record :=
  (.int key, [("siblings_count", .int key), ("rank", .int (key + 7))])

/-- Rows with equal values in the key column, which a write can bring about, are listed as they
were inserted, and so are rows that show equal counts in the place of their keys. -/
theorem fetchRows_disarranged :
    let nodes := Samples.Library.nodes
    let first := nodeUnder 1 1 "left"
    let counting : QuerySpec := { resource := countedNodes, aggregates := [⟨"siblings"⟩] }
    ((ofNodes [first, nodeUnder 2 2 "right"]).update nodes (.int 2) [("id", .int 1)] =
        .ok (1, ofNodes [first, nodeUnder 2 1 "right"]) ∧
      (ofNodes [first, nodeUnder 2 1 "right"]).OneKindEach { resource := nodes } ∧
      (ofNodes [first, nodeUnder 2 1 "right"]).SameRows (ofNodes [nodeUnder 2 1 "right", first]) ∧
      (ofNodes [first, nodeUnder 2 1 "right"]).fetchRows ⟨[nodes]⟩ { resource := nodes } none none ≠
        (ofNodes [nodeUnder 2 1 "right", first]).fetchRows ⟨[nodes]⟩ { resource := nodes }
          none none) ∧
    Registry.validate ⟨[countedNodes]⟩ = .ok () ∧
      (ofNodes [countedNode 1, countedNode 2]).OneKindEach counting ∧
      (ofNodes [countedNode 1, countedNode 2]).SameRows (ofNodes [countedNode 2, countedNode 1]) ∧
      (ofNodes [countedNode 1, countedNode 2]).fetchRows ⟨[countedNodes]⟩ counting none none ≠
        (ofNodes [countedNode 2, countedNode 1]).fetchRows ⟨[countedNodes]⟩ counting none none := by
  intro nodes first counting
  have turned : ∀ left right, (ofNodes [left, right]).SameRows (ofNodes [right, left]) := by
    intro left right name
    by_cases isNodes : name = "nodes"
    · rw [isNodes]
      exact .swap _ _ []
    · have missing : ∀ table, (ofNodes table).table name = [] := by
        intro table
        simp [ofNodes, Contents.table, List.lookup_cons, beq_eq_false_iff_ne.mpr isNodes]
      rw [missing, missing]
  refine ⟨⟨by with_unfolding_all rfl, ?_, turned _ _, ?_⟩, rfl, ?_, turned _ _, ?_⟩
  · intro directive isDirective
    rw [List.mem_singleton.mp isDirective]
    exact ⟨.integer, by decide +kernel⟩
  · rw [fetchRows_of_standByKey rfl (by with_unfolding_all rfl)
        ⟨by decide +kernel, by decide +kernel, by decide +kernel, by decide +kernel⟩,
      fetchRows_of_standByKey rfl (by with_unfolding_all rfl)
        ⟨by decide +kernel, by decide +kernel, by decide +kernel, by decide +kernel⟩]
    intro same
    have names := congrArg (Record.get · "name") (List.cons.inj (Except.ok.inj same)).1
    exact absurd (Value.text.inj names) (by decide)
  · intro directive isDirective
    rw [List.mem_singleton.mp isDirective]
    exact ⟨.integer, by decide +kernel⟩
  · rw [fetchRows_of_standByKey rfl (by with_unfolding_all rfl)
        ⟨by decide +kernel, by decide +kernel, by decide +kernel, by decide +kernel⟩,
      fetchRows_of_standByKey rfl (by with_unfolding_all rfl)
        ⟨by decide +kernel, by decide +kernel, by decide +kernel, by decide +kernel⟩]
    intro same
    have ranks := congrArg (Record.get · "rank") (List.cons.inj (Except.ok.inj same)).1
    exact absurd (Value.int.inj ranks) (by decide)

end Contents

end ResourceServer
