import ResourceServer.Memory
import ResourceServer.Proofs.Action

/-!
# Selection of rows

What a specification selects from the store in memory: the rows that match, each with its
counts, in the order of the table.  Sorting only rearranges them, and the window and the
columns leave out some.  So every row of a result comes from a row on which all filters of
the specification hold.
-/

namespace ResourceServer

namespace Filter

/-- All filters hold exactly when each of them does. -/
theorem evaluateAll_eq_true {row : Record} {nodes : List Node} :
    evaluateAll row nodes = .ok true ↔ ∀ node ∈ nodes, node.evaluate row = .ok true := by
  induction nodes with
  | nil => simp [evaluateAll]
  | cons node rest induction =>
      rw [evaluateAll, bind_eq_ok]
      constructor
      · rintro ⟨holds, first, others⟩
        cases holds with
        | false => cases others
        | true =>
            intro other member
            cases List.mem_cons.mp member with
            | inl same => rwa [same]
            | inr member => exact induction.mp others other member
      · intro all
        refine ⟨true, all node (by simp), ?_⟩
        exact induction.mpr fun other member => all other (by simp [member])

end Filter

namespace Record

theorem has_project {row : Record} {names : List String} {name : String} :
    (row.project names).has name = true ↔ name ∈ names := by
  simp [has, project]

theorem get_project {row : Record} {names : List String} {name : String}
    (member : name ∈ names) : (row.project names).get name = row.get name := by
  induction names with
  | nil => cases member
  | cons first rest induction =>
      by_cases same : name = first
      · subst same
        simp [project, get]
      · have later : name ∈ rest := by simpa [same] using member
        have shown := induction later
        simp only [project, get, List.map_cons, List.lookup_cons] at shown ⊢
        rw [beq_eq_false_iff_ne.mpr same]
        exact shown

end Record

namespace Insertion

variable {α : Type} (precedes : α → α → Bool)

theorem withRun_perm (items : List α) : (withRun precedes items).1.Perm items := by
  cases items with
  | nil => exact List.Perm.refl []
  | cons first rest =>
      cases rest with
      | nil => exact List.Perm.refl [first]
      | cons second rest =>
          simp only [withRun]
          split
          · refine ((List.reverse_perm _).append_right _).trans ?_
            rw [List.take_append_drop]
          · exact List.Perm.refl _

theorem insert_perm (others : List α) (item : α) :
    (insert precedes others item).Perm (item :: others) := by
  simp only [insert, List.splitAt_eq]
  refine List.perm_middle.trans ?_
  rw [List.take_append_drop]

theorem foldl_insert_perm (items sorted : List α) :
    (items.foldl (insert precedes) sorted).Perm (sorted ++ items) := by
  induction items generalizing sorted with
  | nil => simp
  | cons item rest induction =>
      refine (induction (insert precedes sorted item)).trans ?_
      refine ((insert_perm precedes sorted item).append_right rest).trans ?_
      exact List.perm_middle.symm

/-- Arranging items only rearranges them. -/
theorem arrange_perm (items : List α) : (arrange precedes items).Perm items := by
  simp only [arrange]
  refine (foldl_insert_perm precedes _ _).trans ?_
  rw [List.take_append_drop]
  exact withRun_perm precedes items

end Insertion

namespace Record

theorem sortBy_perm {field : String} {direction : SortDirection} {rows sorted : List Record}
    (done : sortBy field direction rows = .ok sorted) : sorted.Perm rows := by
  unfold sortBy at done
  split at done
  · cases done
  · split at done
    · cases done
      cases direction with
      | ascending => exact Insertion.arrange_perm _ rows
      | descending =>
          refine (List.reverse_perm _).trans ?_
          exact (Insertion.arrange_perm _ rows.reverse).trans (List.reverse_perm rows)
    · cases done
      exact List.mergeSort_perm rows _

theorem foldlM_sortBy_perm {directives : List SortDirective} {rows sorted : List Record}
    (done : directives.foldlM (fun rows directive =>
      sortBy directive.field directive.direction rows) rows = .ok sorted) :
    sorted.Perm rows := by
  induction directives generalizing rows with
  | nil =>
      cases done
      exact List.Perm.refl _
  | cons directive rest induction =>
      rw [List.foldlM_cons, bind_eq_ok] at done
      obtain ⟨once, first, others⟩ := done
      exact (induction others).trans (sortBy_perm first)

theorem sortByAll_perm {directives : List SortDirective} {rows sorted : List Record}
    (done : sortByAll directives rows = .ok sorted) : sorted.Perm rows :=
  foldlM_sortBy_perm done

end Record

theorem sliceFrom_of_nonneg {α : Type} {start : Int} (nonneg : 0 ≤ start) (items : List α) :
    sliceFrom items start = items.drop start.toNat := by
  unfold sliceFrom clampPosition
  rw [if_neg (by omega)]
  by_cases inside : start.toNat ≤ items.length
  · rw [Nat.min_eq_left inside]
  · have outside : items.length ≤ start.toNat := by omega
    rw [Nat.min_eq_right outside, List.drop_length, List.drop_eq_nil_of_le outside]

theorem sliceBetween_of_nonneg {α : Type} {start limit : Int} (nonneg : 0 ≤ start)
    (limited : 0 ≤ limit) (items : List α) :
    sliceBetween items start (start + limit) = (items.drop start.toNat).take limit.toNat := by
  change ((sliceFrom items start).take _) = _
  rw [sliceFrom_of_nonneg nonneg]
  unfold clampPosition
  rw [if_neg (by omega), if_neg (by omega), List.take_eq_take_iff, List.length_drop]
  omega

namespace Contents

variable {registry : Registry} {contents : Contents} {spec : QuerySpec}

/-- A row of a result: it comes from a row of the table that matches the specification, gets
its counts, and is cut to the selected columns. -/
def Selects (registry : Registry) (contents : Contents) (spec : QuerySpec) (result : Record) :
    Prop :=
  ∃ row ∈ (contents.table spec.resource.name).rows, rowMatches spec row = .ok true ∧
    ∃ counted, withCounts registry contents spec row = .ok counted ∧
      result = counted.project (resultNames spec)

/-- A row is left out, or it gets its counts and stands before what is selected after it. -/
theorem selectRows_cons_eq_ok {row : Record} {rest selected : List Record} :
    selectRows registry contents spec (row :: rest) = .ok selected ↔
      (rowMatches spec row = .ok false ∧ selectRows registry contents spec rest = .ok selected) ∨
      (rowMatches spec row = .ok true ∧ ∃ counted others,
        withCounts registry contents spec row = .ok counted ∧
          selectRows registry contents spec rest = .ok others ∧ selected = counted :: others) := by
  rw [selectRows, bind_eq_ok]
  constructor
  · rintro ⟨holds, matching, done⟩
    cases holds with
    | false => exact .inl ⟨matching, done⟩
    | true =>
        obtain ⟨counted, counts, done⟩ := bind_eq_ok.mp done
        obtain ⟨others, goesOn, done⟩ := bind_eq_ok.mp done
        cases done
        exact .inr ⟨matching, counted, others, counts, goesOn, rfl⟩
  · rintro (⟨matching, done⟩ | ⟨matching, counted, others, counts, goesOn, rfl⟩)
    · exact ⟨false, matching, done⟩
    · exact ⟨true, matching, bind_eq_ok.mpr ⟨counted, counts, bind_eq_ok.mpr ⟨others, goesOn, rfl⟩⟩⟩

theorem mem_selectRows {rows selected : List Record} {result : Record}
    (done : selectRows registry contents spec rows = .ok selected) (member : result ∈ selected) :
    ∃ row ∈ rows, rowMatches spec row = .ok true ∧
      withCounts registry contents spec row = .ok result := by
  induction rows generalizing selected with
  | nil =>
      cases done
      cases member
  | cons row rest induction =>
      obtain ⟨_, done⟩ | ⟨matching, counted, others, counts, goesOn, rfl⟩ :=
        selectRows_cons_eq_ok.mp done
      · obtain ⟨other, inRest, found⟩ := induction done member
        exact ⟨other, by simp [inRest], found⟩
      · cases List.mem_cons.mp member with
        | inl same =>
            subst same
            exact ⟨row, by simp, matching, counts⟩
        | inr later =>
            obtain ⟨other, inRest, found⟩ := induction goesOn later
            exact ⟨other, by simp [inRest], found⟩

/-- As many rows match as are selected. -/
theorem countRows_of_selectRows {rows selected : List Record}
    (done : selectRows registry contents spec rows = .ok selected) :
    countRows spec rows = .ok selected.length := by
  induction rows generalizing selected with
  | nil =>
      cases done
      rfl
  | cons row rest induction =>
      rw [countRows, bind_eq_ok]
      obtain ⟨unmatched, done⟩ | ⟨matching, counted, others, _, goesOn, rfl⟩ :=
        selectRows_cons_eq_ok.mp done
      · exact ⟨false, unmatched, bind_eq_ok.mpr ⟨_, induction done, rfl⟩⟩
      · exact ⟨true, matching, bind_eq_ok.mpr ⟨_, induction goesOn, rfl⟩⟩

theorem window_none (rows : List Record) : window none none rows = rows := by
  simp [window, sliceFrom, clampPosition]

theorem mem_window {offset limit : Option Int} {rows : List Record} {row : Record}
    (member : row ∈ window offset limit rows) : row ∈ rows := by
  unfold window at member
  cases limit with
  | none => exact List.mem_of_mem_drop member
  | some limit => exact List.mem_of_mem_drop (List.mem_of_mem_take member)

/-- How rows are fetched: they are selected, sorted by key and then by the fields of the
specification, cut to the window and shown with the columns that are asked for. -/
theorem fetchRows_eq_ok {offset limit : Option Int} {rows : List Record} :
    contents.fetchRows registry spec offset limit = .ok rows ↔
      ∃ selected byKey sorted,
        selectRows registry contents spec (contents.table spec.resource.name).rows = .ok selected ∧
        (∀ row ∈ selected, Record.has row spec.resource.keyName = true) ∧
        Record.sortBy spec.resource.keyName .ascending selected = .ok byKey ∧
        Record.sortByAll spec.sorts byKey = .ok sorted ∧
        rows = (window offset limit sorted).map fun row => row.project (resultNames spec) := by
  have complete : ∀ selected : List Record,
      (selected.any fun row => !Record.has row spec.resource.keyName) = false ↔
        ∀ row ∈ selected, Record.has row spec.resource.keyName = true := by
    simp
  unfold fetchRows
  rw [bind_eq_ok]
  constructor
  · rintro ⟨selected, selection, fetched⟩
    split at fetched
    · cases fetched
    · rename_i noneMissing
      obtain ⟨byKey, keyed, fetched⟩ := bind_eq_ok.mp fetched
      obtain ⟨sorted, sorting, fetched⟩ := bind_eq_ok.mp fetched
      cases fetched
      rw [Bool.not_eq_true, complete] at noneMissing
      exact ⟨selected, byKey, sorted, selection, noneMissing, keyed, sorting, rfl⟩
  · rintro ⟨selected, byKey, sorted, selection, noneMissing, keyed, sorting, rfl⟩
    refine ⟨selected, selection, ?_⟩
    rw [if_neg (by rw [(complete selected).mpr noneMissing]; exact Bool.false_ne_true)]
    exact bind_eq_ok.mpr ⟨byKey, keyed, bind_eq_ok.mpr ⟨sorted, sorting, rfl⟩⟩

/-- Every row of a result is selected from the contents. -/
theorem fetchRows_selects {offset limit : Option Int} {rows : List Record}
    (fetched : contents.fetchRows registry spec offset limit = .ok rows) :
    ∀ result ∈ rows, Selects registry contents spec result := by
  intro result member
  obtain ⟨selected, byKey, sorted, selection, _, keyed, sorting, rfl⟩ := fetchRows_eq_ok.mp fetched
  obtain ⟨counted, inWindow, rfl⟩ := List.mem_map.mp member
  have inSelected : counted ∈ selected :=
    (Record.sortBy_perm keyed).subset
      ((Record.sortByAll_perm sorting).subset (mem_window inWindow))
  obtain ⟨row, inTable, matching, counts⟩ := mem_selectRows selection inSelected
  exact ⟨row, inTable, matching, counted, counts, rfl⟩

/-- A window shows a part of the whole result. -/
theorem fetchRows_window {rows : List Record} {offset limit : Int} (start : 0 ≤ offset)
    (limited : 0 ≤ limit) (fetched : contents.fetchRows registry spec none none = .ok rows) :
    contents.fetchRows registry spec (some offset) (some limit) =
      .ok ((rows.drop offset.toNat).take limit.toNat) := by
  obtain ⟨selected, byKey, sorted, selection, complete, keyed, sorting, rfl⟩ :=
    fetchRows_eq_ok.mp fetched
  refine fetchRows_eq_ok.mpr
    ⟨selected, byKey, sorted, selection, complete, keyed, sorting, ?_⟩
  rw [window_none, ← List.map_drop, ← List.map_take, ← sliceBetween_of_nonneg start limited]
  rfl

/-- The rows of the whole result are those that are counted. -/
theorem countRows_of_fetchRows {rows : List Record}
    (fetched : contents.fetchRows registry spec none none = .ok rows) :
    countRows spec (contents.table spec.resource.name).rows = .ok rows.length := by
  obtain ⟨selected, byKey, sorted, selection, _, keyed, sorting, rfl⟩ := fetchRows_eq_ok.mp fetched
  rw [countRows_of_selectRows selection, window_none, List.length_map,
    ((Record.sortByAll_perm sorting).trans (Record.sortBy_perm keyed)).length_eq]

theorem evaluateAll_of_rowMatches {row : Record} (matching : rowMatches spec row = .ok true) :
    Filter.evaluateAll row spec.wheres = .ok true := by
  unfold rowMatches at matching
  split at matching
  · obtain ⟨holds, filters, found⟩ := bind_eq_ok.mp matching
    cases holds with
    | true => exact filters
    | false => cases found
  · cases matching

end Contents

end ResourceServer
