import ResourceServer.Proofs.Memory.Narrowing

/-!
# Scopes of trashed rows

A scope leaves out rows before anything else is asked of them.  So what a query yields without the
trashed rows, and what it yields of them alone, are two parts of what it yields in all: selecting
goes row by row, and where the selected rows hold no NaN in what they are sorted by, sorting some of
them arranges them as they stand in the whole.  Counting needs no order.
-/

namespace ResourceServer

/-- Whether a scope takes in a row that is trashed, or one that is not. -/
def TrashedScope.admits (scope : TrashedScope) (trashed : Bool) : Bool :=
  match scope with
  | .without => !trashed
  | .included => true
  | .only => trashed

namespace Contents

variable {registry : Registry} {contents : Contents} {spec : QuerySpec}

theorem countRows_cons_eq_ok {row : Record} {rest : List Record} {total : Nat} :
    countRows spec (row :: rest) = .ok total ↔
      ∃ holds others, rowMatches spec row = .ok holds ∧ countRows spec rest = .ok others ∧
        total = if holds then others + 1 else others := by
  rw [countRows, bind_eq_ok]
  constructor
  · rintro ⟨holds, matching, done⟩
    obtain ⟨others, counted, done⟩ := bind_eq_ok.mp done
    exact ⟨holds, others, matching, counted, (Except.ok.inj done).symm⟩
  · rintro ⟨holds, others, matching, counted, rfl⟩
    exact ⟨holds, matching, bind_eq_ok.mpr ⟨others, counted, rfl⟩⟩

section Soft

variable (soft : spec.resource.softDeletes = true)

include soft

theorem inScope_withTrashed (scope : TrashedScope) (row : Record) :
    inScope (spec.withTrashed scope) row = scope.admits (spec.resource.isTrashed row) := by
  have isSoft : (spec.withTrashed scope).resource.softDeletes = true := soft
  rw [inScope, if_pos isSoft]
  cases scope <;> rfl

/-- A row matches in a scope when the scope takes it in and it matches at all. -/
theorem rowMatches_withTrashed (scope : TrashedScope) (row : Record) :
    rowMatches (spec.withTrashed scope) row =
      if scope.admits (spec.resource.isTrashed row) then rowMatches (spec.withTrashed .included) row
      else .ok false := by
  rw [rowMatches, rowMatches, inScope_withTrashed soft, inScope_withTrashed soft]
  cases scope.admits (spec.resource.isTrashed row) with
  | true => rfl
  | false => rfl

/-- What is selected in a scope: those of all selected rows that the scope takes in. -/
theorem selectRows_withTrashed {rows selected : List Record}
    (done : selectRows registry contents (spec.withTrashed .included) rows = .ok selected) :
    ∃ pairs : List (Record × Record), selected = pairs.map Prod.snd ∧
      (∀ pair ∈ pairs, pair.1 ∈ rows ∧ rowMatches (spec.withTrashed .included) pair.1 = .ok true ∧
        withCounts registry contents spec pair.1 = .ok pair.2) ∧
      ∀ scope : TrashedScope, selectRows registry contents (spec.withTrashed scope) rows =
        .ok ((pairs.filter fun pair =>
          scope.admits (spec.resource.isTrashed pair.1)).map Prod.snd) := by
  induction rows generalizing selected with
  | nil =>
      cases done
      exact ⟨[], rfl, by simp, fun _ => rfl⟩
  | cons row rest induction =>
      rcases selectRows_cons_eq_ok.mp done with
        ⟨unmatched, done⟩ | ⟨matching, counted, others, counts, goesOn, rfl⟩
      · obtain ⟨pairs, isSelected, each, scopes⟩ := induction done
        refine ⟨pairs, isSelected, fun pair member => ?_, fun scope => ?_⟩
        · exact (each pair member).imp_left (List.mem_cons_of_mem row)
        · refine selectRows_cons_eq_ok.mpr (.inl ⟨?_, scopes scope⟩)
          rw [rowMatches_withTrashed soft, unmatched, ite_self]
      · obtain ⟨pairs, rfl, each, scopes⟩ := induction goesOn
        refine ⟨(row, counted) :: pairs, rfl, ?_, fun scope => ?_⟩
        · rw [List.forall_mem_cons]
          refine ⟨⟨List.mem_cons_self, matching, counts⟩, fun pair member => ?_⟩
          exact (each pair member).imp_left (List.mem_cons_of_mem row)
        · rw [selectRows_cons_eq_ok, rowMatches_withTrashed soft, matching]
          cases admitted : scope.admits (spec.resource.isTrashed row) with
          | false => exact .inl ⟨rfl, by simp [admitted, scopes scope]⟩
          | true => exact .inr ⟨rfl, counted, _, counts, scopes scope, by simp [admitted]⟩

/-- The rows that match are those that are not trashed and those that are. -/
theorem countRows_included {rows : List Record} {total : Nat} :
    countRows (spec.withTrashed .included) rows = .ok total ↔
      ∃ live trashed, countRows (spec.withTrashed .without) rows = .ok live ∧
        countRows (spec.withTrashed .only) rows = .ok trashed ∧ total = live + trashed := by
  induction rows generalizing total with
  | nil =>
      constructor
      · intro done
        cases done
        exact ⟨0, 0, rfl, rfl, rfl⟩
      · rintro ⟨live, trashed, isLive, isTrashed, rfl⟩
        cases isLive
        cases isTrashed
        rfl
  | cons row rest induction =>
      have without := rowMatches_withTrashed soft .without row
      have only := rowMatches_withTrashed soft .only row
      simp only [countRows_cons_eq_ok, induction]
      constructor
      · rintro ⟨holds, _, matching, ⟨live, trashed, isLive, isTrashed, rfl⟩, rfl⟩
        cases state : spec.resource.isTrashed row with
        | false =>
            simp only [TrashedScope.admits, state, matching] at without only
            refine ⟨_, _, ⟨holds, live, without, isLive, rfl⟩, ⟨false, trashed, only, isTrashed, rfl⟩, ?_⟩
            cases holds <;> simp [Nat.add_right_comm]
        | true =>
            simp only [TrashedScope.admits, state, matching] at without only
            refine ⟨_, _, ⟨false, live, without, isLive, rfl⟩, ⟨holds, trashed, only, isTrashed, rfl⟩, ?_⟩
            cases holds <;> simp [Nat.add_assoc]
      · rintro ⟨_, _, ⟨first, live, isFirst, isLive, rfl⟩, ⟨second, trashed, isSecond, isTrashed, rfl⟩,
          rfl⟩
        cases state : spec.resource.isTrashed row with
        | false =>
            simp only [TrashedScope.admits, state] at without only
            obtain rfl : second = false := by simpa using isSecond.symm.trans only
            refine ⟨first, _, without.symm.trans isFirst, ⟨live, trashed, isLive, isTrashed, rfl⟩, ?_⟩
            cases first <;> simp [Nat.add_right_comm]
        | true =>
            simp only [TrashedScope.admits, state] at without only
            obtain rfl : first = false := by simpa using isFirst.symm.trans without
            refine ⟨second, _, only.symm.trans isSecond, ⟨live, trashed, isLive, isTrashed, rfl⟩, ?_⟩
            cases second <;> simp [Nat.add_assoc]

end Soft

/-- The rows that a query selects hold no NaN in the key column and in the fields that they are
sorted by. -/
def OrderlySelection (registry : Registry) (contents : Contents) (spec : QuerySpec) : Prop :=
  ∀ row ∈ (contents.table spec.resource.name).rows, rowMatches spec row = .ok true →
    ∀ counted, withCounts registry contents spec row = .ok counted →
      (counted.get spec.resource.keyName).Orderly ∧
        ∀ directive ∈ spec.sorts, (counted.get directive.field).Orderly

/-- Counts are no NaN, so it is enough that the rows of the table hold none. -/
theorem OrderlyFor.selection (orderly : contents.OrderlyFor spec) :
    OrderlySelection registry contents spec := by
  intro row inTable _ counted counts
  obtain ⟨key, sorts⟩ := orderly row inTable
  exact ⟨get_withCounts_orderly counts key,
    fun directive isSort => get_withCounts_orderly counts (sorts directive isSort)⟩

/-- What is fetched in a scope: those of all fetched rows that the scope takes in, as they stand. -/
theorem fetchRows_withTrashed (soft : spec.resource.softDeletes = true)
    (orderly : OrderlySelection registry contents (spec.withTrashed .included))
    {rows : List Record}
    (fetched : contents.fetchRows registry (spec.withTrashed .included) none none = .ok rows) :
    ∃ pairs : List (Record × Record),
      rows = pairs.map (fun pair => pair.2.project (resultNames spec)) ∧
      (∀ pair ∈ pairs, pair.1 ∈ (contents.table spec.resource.name).rows ∧
        rowMatches (spec.withTrashed .included) pair.1 = .ok true ∧
        withCounts registry contents spec pair.1 = .ok pair.2) ∧
      ∀ scope : TrashedScope, contents.fetchRows registry (spec.withTrashed scope) none none =
        .ok ((pairs.filter fun pair => scope.admits (spec.resource.isTrashed pair.1)).map fun pair =>
          pair.2.project (resultNames spec)) := by
  obtain ⟨selected, byKey, sorted, selection, complete, keyed, sorting, rfl⟩ :=
    fetchRows_eq_ok.mp fetched
  obtain ⟨pairs, rfl, each, scopes⟩ := selectRows_withTrashed soft selection
  have orderlyPair : ∀ pair ∈ pairs, (pair.2.get spec.resource.keyName).Orderly ∧
      ∀ directive ∈ spec.sorts, (pair.2.get directive.field).Orderly :=
    fun pair member => orderly pair.1 (each pair member).1 (each pair member).2.1 pair.2
      (each pair member).2.2
  obtain ⟨arranged, permKey, rfl, keptKey⟩ := Record.sortBy_map
    (fun pair member => (orderlyPair pair member).1) keyed
  obtain ⟨final, perm, rfl, kept⟩ := Record.sortByAll_map
    (fun directive isDirective pair member =>
      (orderlyPair pair (permKey.subset member)).2 directive isDirective) sorting
  refine ⟨final, ?_, fun pair member => each pair (permKey.subset (perm.subset member)), ?_⟩
  · rw [window_none, List.map_map]
    rfl
  · intro scope
    refine fetchRows_eq_ok.mpr ⟨_, _, _, scopes scope, ?_, keptKey _, kept _, ?_⟩
    · intro row isKept
      obtain ⟨pair, member, rfl⟩ := List.mem_map.mp isKept
      exact complete pair.2 (List.mem_map_of_mem (List.mem_of_mem_filter member))
    · rw [window_none, List.map_map]
      rfl

/-! ## Without trash -/

/-- Where no row can be trashed, all scopes are the same. -/
theorem rowMatches_withTrashed_of_hard (hard : spec.resource.softDeletes = false)
    (scope : TrashedScope) (row : Record) :
    rowMatches (spec.withTrashed scope) row = rowMatches spec row := by
  have isHard : (spec.withTrashed scope).resource.softDeletes = false := hard
  have scopes : inScope (spec.withTrashed scope) row = inScope spec row := by
    simp [inScope, hard, isHard]
  rw [rowMatches, rowMatches, scopes]
  rfl

theorem selectRows_withTrashed_of_hard (hard : spec.resource.softDeletes = false)
    (scope : TrashedScope) (rows : List Record) :
    selectRows registry contents (spec.withTrashed scope) rows =
      selectRows registry contents spec rows := by
  induction rows with
  | nil => rfl
  | cons row rest induction =>
      rw [selectRows, selectRows, rowMatches_withTrashed_of_hard hard, induction]
      rfl

theorem countRows_withTrashed_of_hard (hard : spec.resource.softDeletes = false)
    (scope : TrashedScope) (rows : List Record) :
    countRows (spec.withTrashed scope) rows = countRows spec rows := by
  induction rows with
  | nil => rfl
  | cons row rest induction =>
      rw [countRows, countRows, rowMatches_withTrashed_of_hard hard, induction]

theorem fetchRows_withTrashed_of_hard (hard : spec.resource.softDeletes = false)
    (scope : TrashedScope) (offset limit : Option Int) :
    contents.fetchRows registry (spec.withTrashed scope) offset limit =
      contents.fetchRows registry spec offset limit := by
  rw [fetchRows, fetchRows, selectRows_withTrashed_of_hard hard]
  rfl

end Contents

end ResourceServer
