import ResourceServer.Proofs.Memory.Sorting

/-!
# Narrower queries

A query that asks for fewer rows than another one, but otherwise for the same, yields the
rows of the other one that it keeps, in the order in which they stand there.  So the rows
related to some joining values can be picked from the rows related to more of them.
-/

namespace ResourceServer

namespace Record

theorem get_eq_null {row : Record} {name : String} (missing : row.has name = false) :
    row.get name = .null := by
  rw [has, ← Entries.lookup_isSome, Option.isSome_eq_false_iff,
    Option.isNone_iff_eq_none] at missing
  rw [get, missing]
  rfl

theorem get_set (row : Record) (name other : String) (value : Value) :
    (row.set name value).get other = if other = name then value else row.get other := by
  unfold set get has
  rw [Entries.lookup_set]
  split <;> rfl

theorem get_project_other {row : Record} {names : List String} {name : String}
    (missing : name ∉ names) : (row.project names).get name = .null := by
  refine get_eq_null ?_
  rw [← Bool.not_eq_true, has_project]
  exact missing

end Record

namespace Contents

variable {registry : Registry} {contents : Contents} {spec : QuerySpec}

/-- Counts are whole numbers, and a column that is no count keeps its value. -/
theorem get_withCounts {row counted : Record} {name : String}
    (done : withCounts registry contents spec row = .ok counted) :
    (name ∈ spec.aggregateAliases ∧ ∃ count, counted.get name = .int count) ∨
      (name ∉ spec.aggregateAliases ∧ counted.get name = row.get name) := by
  unfold withCounts at done
  unfold QuerySpec.aggregateAliases
  -- The counts are taken of the row itself, so only the result so far changes along the way.
  have general : ∀ aggregates : List AggregateRequest, ∀ result : Record,
      aggregates.foldlM (fun result aggregate => do
        let count ← relatedCount registry contents spec.resource aggregate.relation row
        .ok (Record.set result aggregate.alias (.int count))) result = .ok counted →
      (name ∈ aggregates.map AggregateRequest.alias ∧ ∃ count, counted.get name = .int count) ∨
        (name ∉ aggregates.map AggregateRequest.alias ∧ counted.get name = result.get name) := by
    intro aggregates
    induction aggregates with
    | nil =>
        intro result done
        cases done
        exact .inr ⟨List.not_mem_nil, rfl⟩
    | cons aggregate rest induction =>
        intro result done
        rw [List.foldlM_cons, bind_eq_ok] at done
        obtain ⟨next, counts, done⟩ := done
        obtain ⟨count, _, counts⟩ := bind_eq_ok.mp counts
        cases counts
        cases induction _ done with
        | inl later => exact .inl ⟨List.mem_cons_of_mem _ later.1, later.2⟩
        | inr kept =>
            rw [Record.get_set] at kept
            by_cases same : name = aggregate.alias
            · rw [if_pos same] at kept
              exact .inl ⟨by simp [same], count, kept.2⟩
            · rw [if_neg same] at kept
              exact .inr ⟨by simpa [same] using kept.1, kept.2⟩
  exact general spec.aggregates row done

theorem get_withCounts_orderly {row counted : Record} {name : String}
    (done : withCounts registry contents spec row = .ok counted) (orderly : (row.get name).Orderly) :
    (counted.get name).Orderly := by
  cases get_withCounts done with
  | inl isCount =>
      obtain ⟨_, count, shown⟩ := isCount
      rw [shown]
      exact .number rfl rfl
  | inr kept =>
      rw [kept.2]
      exact orderly

/-- What a row of the table holds in the fields that a query sorts by is orderly. -/
def OrderlyFor (contents : Contents) (spec : QuerySpec) : Prop :=
  ∀ row ∈ (contents.table spec.resource.name).rows,
    (row.get spec.resource.keyName).Orderly ∧
      ∀ directive ∈ spec.sorts, (row.get directive.field).Orderly

theorem selectRows_narrow {wheres : List Filter.Node} {keep : Record → Bool}
    {rows selected : List Record}
    (narrows : ∀ row ∈ rows, ∀ holds, rowMatches spec row = .ok holds →
      rowMatches { spec with wheres } row = .ok (holds && keep row))
    (keeps : ∀ row ∈ rows, ∀ counted, withCounts registry contents spec row = .ok counted →
      keep counted = keep row)
    (done : selectRows registry contents spec rows = .ok selected) :
    selectRows registry contents { spec with wheres } rows = .ok (selected.filter keep) := by
  induction rows generalizing selected with
  | nil =>
      cases done
      rfl
  | cons row rest induction =>
      rw [List.forall_mem_cons] at narrows keeps
      obtain ⟨unmatched, done⟩ | ⟨matching, counted, others, counts, goesOn, rfl⟩ :=
        selectRows_cons_eq_ok.mp done
      · exact selectRows_cons_eq_ok.mpr
          (.inl ⟨narrows.1 false unmatched, induction narrows.2 keeps.2 done⟩)
      · have kept := keeps.1 counted counts
        have later := induction narrows.2 keeps.2 goesOn
        have narrowed := narrows.1 true matching
        rw [Bool.true_and] at narrowed
        cases keepsRow : keep row with
        | false =>
            rw [keepsRow] at kept narrowed
            rw [List.filter_cons_of_neg (by simp [kept])]
            exact selectRows_cons_eq_ok.mpr (.inl ⟨narrowed, later⟩)
        | true =>
            rw [keepsRow] at kept narrowed
            rw [List.filter_cons_of_pos kept]
            exact selectRows_cons_eq_ok.mpr (.inr ⟨narrowed, counted, _, counts, later, rfl⟩)

/-- A narrower query sorts and shows the rows that it keeps like the other one. -/
theorem fetchRows_keep {wheres : List Filter.Node} {keep : Record → Bool} {rows : List Record}
    (orderly : contents.OrderlyFor spec)
    (narrows : ∀ row ∈ (contents.table spec.resource.name).rows, ∀ holds,
      rowMatches spec row = .ok holds →
        rowMatches { spec with wheres } row = .ok (holds && keep row))
    (keeps : ∀ row ∈ (contents.table spec.resource.name).rows, ∀ counted,
      withCounts registry contents spec row = .ok counted → keep counted = keep row)
    (fetched : contents.fetchRows registry spec none none = .ok rows) :
    ∃ sorted : List Record,
      (∀ counted ∈ sorted, ∃ row ∈ (contents.table spec.resource.name).rows,
        withCounts registry contents spec row = .ok counted) ∧
      rows = sorted.map (Record.project · (resultNames spec)) ∧
      contents.fetchRows registry { spec with wheres } none none =
        .ok ((sorted.filter keep).map (Record.project · (resultNames spec))) := by
  obtain ⟨selected, byKey, sorted, selection, complete, keyed, sorting, rfl⟩ :=
    fetchRows_eq_ok.mp fetched
  have orderlySelected : ∀ name, (∀ row ∈ (contents.table spec.resource.name).rows,
      (Record.get row name).Orderly) → ∀ counted ∈ selected, (Record.get counted name).Orderly := by
    intro name orderlyRows counted isSelected
    obtain ⟨row, inTable, _, counts⟩ := mem_selectRows selection isSelected
    exact get_withCounts_orderly counts (orderlyRows row inTable)
  refine ⟨sorted, ?_, by rw [window_none], ?_⟩
  · intro counted isSorted
    have isSelected : counted ∈ selected :=
      (Record.sortBy_perm keyed).subset ((Record.sortByAll_perm sorting).subset isSorted)
    obtain ⟨row, inTable, _, counts⟩ := mem_selectRows selection isSelected
    exact ⟨row, inTable, counts⟩
  · have keyedKept := Record.sortBy_filter
      (orderlySelected _ fun row inTable => (orderly row inTable).1) keyed keep
    have sortedKept := Record.sortByAll_filter (fun directive isDirective row isRow =>
      orderlySelected _ (fun row inTable => (orderly row inTable).2 directive isDirective) row
        ((Record.sortBy_perm keyed).subset isRow)) sorting keep
    refine fetchRows_eq_ok.mpr ⟨selected.filter keep, byKey.filter keep, sorted.filter keep,
      selectRows_narrow narrows keeps selection, ?_, keyedKept, sortedKept, ?_⟩
    · exact fun row isKept => complete row (List.mem_of_mem_filter isKept)
    · rw [window_none]
      rfl

end Contents

end ResourceServer
