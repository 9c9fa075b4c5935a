import ResourceServer.Proofs.Memory.Narrowing
import ResourceServer.Proofs.Memory.Related
import ResourceServer.Proofs.Sql.Correspondence
import ResourceServer.Proofs.Sql.Sending

/-!
# Rows that both stores select

The filters, the search and the scope of a query become conditions that are sent once for all rows,
so they select a row exactly when the query matches the record that the row keeps.  A selected row
gets the counts that the record gets, each name once.
-/

namespace ResourceServer

theorem Record.has_set {record : Record} {name other : String} {value : Value}
    (has : record.has other = true) : (record.set name value).has other = true := by
  rw [Record.has, ← Entries.lookup_isSome] at has ⊢
  unfold Record.set Record.has
  rw [Entries.lookup_set]
  split
  · rfl
  · exact has

namespace Sql

/-! ## Conditions -/

/-- Filters and a search that both stores take alike. -/
structure ConditionsSuit (spec : QuerySpec) : Prop where
  wheres : nodesSuit spec.resource.model spec.wheres = true
  search : ∀ term, spec.searchTerm = some term → SearchSuits spec.resource.model term

/-- Whether the search of a query looks only at ASCII texts and nulls in a record. -/
def Searchable (spec : QuerySpec) (record : Record) : Prop :=
  ∀ term, spec.searchTerm = some term →
    ∀ field ∈ term.fields, isSearchable (record.get field) = true

section Conditions

variable {registry : Registry} {spec : QuerySpec} {record : Record} {row : Row}

theorem decides_wheres {model : Model} (keeps : RowKeeps model record row)
    {nodes : List Filter.Node} (suits : nodesSuit model nodes = true) :
    ∃ conditions truths, nodes.mapM (Condition.ofNode model) = .ok conditions ∧
      Filter.evaluateAll record nodes = .ok (truths.all id) ∧
      List.Forall₂ (Condition.Decides row) conditions truths := by
  induction nodes with
  | nil => exact ⟨[], [], rfl, rfl, List.Forall₂.nil⟩
  | cons node nodes induction =>
      rw [nodesSuit, Bool.and_eq_true] at suits
      obtain ⟨condition, holds, built, evaluated, decides⟩ := decides_node keeps node suits.1
      obtain ⟨conditions, truths, builtOthers, evaluatedOthers, decideOthers⟩ := induction suits.2
      refine ⟨condition :: conditions, holds :: truths, ?_, ?_, List.Forall₂.cons decides decideOthers⟩
      · rw [List.mapM_cons, built, builtOthers]
        rfl
      · rw [Filter.evaluateAll, evaluated, List.all_cons]
        cases holds with
        | false => rfl
        | true => exact evaluatedOthers

theorem decides_scope (valid : registry.validate = .ok ())
    (registered : spec.resource ∈ registry.resources)
    (keeps : RowKeeps spec.resource.model record row) :
    ∃ conditions truths, Condition.ofScope spec.resource spec.trashed = .ok conditions ∧
      Contents.inScope spec record = truths.all id ∧
      List.Forall₂ (Condition.Decides row) conditions truths := by
  unfold Condition.ofScope Contents.inScope
  cases softDeletes : spec.resource.softDeletes with
  | false => exact ⟨[], [], rfl, rfl, List.Forall₂.nil⟩
  | true =>
      obtain ⟨column, found⟩ := Model.exists_column?
        (Registry.deletedAt_mem_columns valid registered softDeletes)
      have named : queryColumn spec.resource.model spec.resource.deletedAtColumn = .ok column := by
        rw [queryColumn, found]
      have keepsMark := keeps.of_column? found
      rw [named]
      cases spec.trashed with
      | without =>
          refine ⟨_, _, rfl, ?_, List.Forall₂.cons (decides_empty keepsMark true) List.Forall₂.nil⟩
          simp [Resource.isTrashed, softDeletes]
      | included => exact ⟨[], [], rfl, rfl, List.Forall₂.nil⟩
      | only =>
          refine ⟨_, _, rfl, ?_, List.Forall₂.cons (decides_empty keepsMark false) List.Forall₂.nil⟩
          simp [Resource.isTrashed, softDeletes]

/-- The conditions of a query decide on a row whether the query matches the record. -/
theorem decides_spec (valid : registry.validate = .ok ())
    (registered : spec.resource ∈ registry.resources) (suits : ConditionsSuit spec)
    (keeps : RowKeeps spec.resource.model record row) (searchable : Searchable spec record) :
    ∃ conditions truths, Condition.ofSpec spec = .ok conditions ∧
      Contents.rowMatches spec record = .ok (truths.all id) ∧
      List.Forall₂ (Condition.Decides row) conditions truths := by
  obtain ⟨filters, filterTruths, builtFilters, evaluated, decideFilters⟩ :=
    decides_wheres keeps suits.wheres
  obtain ⟨scopes, scopeTruths, builtScopes, inScope, decideScopes⟩ :=
    decides_scope valid registered keeps
  obtain ⟨searches, searchTruths, builtSearches, found, decideSearches⟩ :
      ∃ searches truths,
        spec.searchTerm.toList.mapM (Condition.ofSearch spec.resource.model) = .ok searches ∧
        (spec.searchTerm.all fun term => term.evaluate record) = truths.all id ∧
        List.Forall₂ (Condition.Decides row) searches truths := by
    cases term : spec.searchTerm with
    | none => exact ⟨[], [], rfl, rfl, List.Forall₂.nil⟩
    | some given =>
        obtain ⟨search, built, decides⟩ :=
          decides_search (suits.search given term) keeps (searchable given term)
        refine ⟨[search], [given.evaluate record], ?_, by simp, List.Forall₂.cons decides List.Forall₂.nil⟩
        rw [Option.toList_some, List.mapM_cons, built]
        rfl
  refine ⟨filters ++ searches ++ scopes, filterTruths ++ searchTruths ++ scopeTruths, ?_, ?_,
    List.rel_append (List.rel_append decideFilters decideSearches) decideScopes⟩
  · rw [Condition.ofSpec, builtFilters, builtSearches, builtScopes]
    rfl
  · rw [Contents.rowMatches, inScope, evaluated, found, List.all_append, List.all_append]
    cases scopeTruths.all id with
    | false => rw [if_neg Bool.false_ne_true, Bool.and_false]
    | true =>
        rw [if_pos rfl, Bool.and_true]
        rfl

/-- The conditions of a query can be sent, whatever the rows are, and select the rows whose records
the query matches. -/
theorem spec_selects (valid : registry.validate = .ok ())
    (registered : spec.resource ∈ registry.resources) (suits : ConditionsSuit spec) :
    ∃ conditions cells, Condition.ofSpec spec = .ok conditions ∧
      Condition.mapParametersOf Operand.toCell (Condition.stated conditions) = .ok cells ∧
      (Condition.testsOf cells).any Condition.hasLongPattern = false ∧
      ∀ record row, RowKeeps spec.resource.model record row → Searchable spec record →
        Contents.rowMatches spec record = .ok (Condition.select cells row) := by
  -- What is sent does not depend on the row, so a row of nulls shows it, even if there is no other.
  have noValues : RowKeeps spec.resource.model [] [] := fun column _ => keeps_null column
  have noTexts : Searchable spec [] := fun term _ field _ => rfl
  obtain ⟨conditions, truths, built, _, decide⟩ :=
    decides_spec valid registered suits noValues noTexts
  obtain ⟨kept, decideKept, _⟩ := Condition.decides_stated decide
  obtain ⟨cells, sent, short, _⟩ := Condition.decides_several decideKept
  refine ⟨conditions, cells, built, sent, short, ?_⟩
  intro record row keeps searchable
  obtain ⟨others, truths, builtAgain, evaluated, decide⟩ :=
    decides_spec valid registered suits keeps searchable
  rw [built, Except.ok.injEq] at builtAgain
  subst builtAgain
  obtain ⟨kept, decideKept, same⟩ := Condition.decides_stated decide
  obtain ⟨otherCells, sentAgain, _, all, _⟩ := Condition.decides_several decideKept
  rw [sent, Except.ok.injEq] at sentAgain
  subst sentAgain
  rw [evaluated, ← same, Condition.select]
  congr 1
  rw [Bool.eq_iff_iff, ← all, Truth.selects_eq_true]

end Conditions

/-! ## Columns and counts -/

theorem mapM_queryColumn {model : Model} {names : List String}
    (areColumns : ∀ name ∈ names, name ∈ model.columnNames) :
    ∃ columns, names.mapM (queryColumn model) = .ok columns ∧
      List.Forall₂ (fun name column => model.column? name = some column) names columns := by
  obtain ⟨columns, found⟩ := exists_forall₂ fun name member =>
    Model.exists_column? (areColumns name member)
  refine ⟨columns, mapM_of_forall₂ (found.imp fun name column isColumn => ?_), found⟩
  rw [queryColumn, isColumn]

/-- A selected count that stands for an aggregate: it has its name, and counts for every row what is
counted in memory for the record that the row keeps. -/
structure CountsFor (registry : Registry) (contents : Contents) (database : Database)
    (owner : Resource) (aggregate : AggregateRequest) (count : CountColumn) (table : Table) : Prop where
  built : CountColumn.ofAggregate registry owner aggregate = .ok count
  label : count.label = aggregate.alias
  counted : database.table count.target = .ok table
  agrees : ∀ record row, RowKeeps owner.model record row →
    contents.relatedCount registry owner aggregate.relation record = .ok (countFor count table row)

section Counts

variable {registry : Registry} {contents : Contents} {database : Database}

theorem Countable.countsFor {owner target : Resource} {aggregate : AggregateRequest}
    {relation : Relation} {ownerColumn targetColumn : Column}
    (countable : Countable registry owner aggregate.relation relation target ownerColumn targetColumn)
    (valid : registry.validate = .ok ()) (same : SameContents registry contents database) :
    ∃ count table, CountsFor registry contents database owner aggregate count table := by
  obtain ⟨liveColumn, built, trashes, keepsAll⟩ := countable.built valid
  obtain ⟨table, found, sameRows⟩ := same target (List.mem_of_find?_eq_some countable.known)
  refine ⟨_, table, built, rfl, ?_, ?_⟩
  · rw [Database.table, found]
  · intro record row keeps
    exact countable.agrees sameRows trashes keepsAll keeps

/-- Of the counts of a query the first of each name is selected. -/
theorem labels_distinct (counts kept : List CountColumn) :
    (counts.foldl (fun kept count =>
        if kept.any (·.label == count.label) then kept else kept ++ [count]) kept).map
          CountColumn.label =
      (counts.map CountColumn.label).foldl (fun names name =>
        if names.contains name then names else names ++ [name]) (kept.map CountColumn.label) := by
  induction counts generalizing kept with
  | nil => rfl
  | cons count counts induction =>
      have known : kept.any (·.label == count.label) =
          (kept.map CountColumn.label).contains count.label := by
        rw [List.contains_eq_any_beq, List.any_map]
        congr 1
        funext other
        exact Bool.beq_comm
      rw [List.foldl_cons, induction, List.map_cons, List.foldl_cons, known]
      split <;> simp

theorem mem_of_mem_distinct {counts kept : List CountColumn} {count : CountColumn}
    (member : count ∈ counts.foldl (fun kept count =>
      if kept.any (·.label == count.label) then kept else kept ++ [count]) kept) :
    count ∈ kept ∨ count ∈ counts := by
  induction counts generalizing kept with
  | nil => exact .inl member
  | cons first counts induction =>
      rw [List.foldl_cons] at member
      cases induction member with
      | inr later => exact .inr (List.mem_cons_of_mem first later)
      | inl before =>
          split at before
          · exact .inl before
          · cases List.mem_append.mp before with
            | inl inKept => exact .inl inKept
            | inr isFirst => exact .inr (by simp [List.mem_singleton.mp isFirst])

/-- The selected counts of a query, each with the table that it counts in. -/
theorem countColumns_eq {spec : QuerySpec}
    (each : ∀ aggregate ∈ spec.aggregates,
      ∃ count table, CountsFor registry contents database spec.resource aggregate count table) :
    ∃ counts tables, countColumns registry spec = .ok counts ∧
      counts.map CountColumn.label = distinctNames spec.aggregateAliases ∧
      List.Forall₂ (fun count table => ∃ aggregate ∈ spec.aggregates,
        CountsFor registry contents database spec.resource aggregate count table) counts tables := by
  obtain ⟨all, stand⟩ := exists_forall₂ each
  have built : spec.aggregates.mapM (CountColumn.ofAggregate registry spec.resource) = .ok all :=
    mapM_of_forall₂ (stand.imp fun aggregate count counts => by
      obtain ⟨table, counts⟩ := counts
      exact counts.built)
  have labels : all.map CountColumn.label = spec.aggregateAliases := by
    have alike : List.Forall₂ (fun aggregate count => aggregate.alias = count.label)
        spec.aggregates all := stand.imp fun aggregate count counts => by
      obtain ⟨table, counts⟩ := counts
      exact counts.label.symm
    rw [QuerySpec.aggregateAliases, eq_comm, ← List.forall₂_eq_eq_eq, List.forall₂_map_left_iff,
      List.forall₂_map_right_iff]
    exact alike
  have tabled : ∀ count ∈ all.foldl (fun kept count =>
      if kept.any (·.label == count.label) then kept else kept ++ [count]) [],
      ∃ table, ∃ aggregate ∈ spec.aggregates,
        CountsFor registry contents database spec.resource aggregate count table := by
    intro count member
    have inAll : count ∈ all := by simpa using mem_of_mem_distinct member
    obtain ⟨aggregate, isAggregate, table, counts⟩ := exists_of_mem_right stand inAll
    exact ⟨table, aggregate, isAggregate, counts⟩
  obtain ⟨tables, standAgain⟩ := exists_forall₂ tabled
  refine ⟨_, tables, ?_, ?_, standAgain⟩
  · rw [countColumns, built]
    rfl
  · rw [labels_distinct, labels]
    rfl

theorem alias_injective {first second : AggregateRequest}
    (same : first.alias = second.alias) : first = second := by
  obtain ⟨first⟩ := first
  obtain ⟨second⟩ := second
  have same : first ++ "_count" = second ++ "_count" := same
  rw [String.append_left_inj] at same
  rw [same]

/-- When all counts of a query can be taken, a record gets each of them and keeps the rest. -/
theorem withCounts_eq {spec : QuerySpec} {record : Record} {number : AggregateRequest → Int}
    (each : ∀ aggregate ∈ spec.aggregates,
      contents.relatedCount registry spec.resource aggregate.relation record =
        .ok (number aggregate)) :
    ∃ counted, contents.withCounts registry spec record = .ok counted ∧
      (∀ aggregate ∈ spec.aggregates, counted.get aggregate.alias = .int (number aggregate)) ∧
      (∀ name, name ∉ spec.aggregateAliases → counted.get name = record.get name) ∧
      ∀ name, record.has name = true → counted.has name = true := by
  -- The counts are taken of the record itself, so only the result so far changes along the way.
  have general : ∀ (aggregates : List AggregateRequest) (result : Record),
      (∀ aggregate ∈ aggregates,
        contents.relatedCount registry spec.resource aggregate.relation record =
          .ok (number aggregate)) →
      ∃ counted,
        aggregates.foldlM (fun result aggregate => do
          let count ← contents.relatedCount registry spec.resource aggregate.relation record
          .ok (Record.set result aggregate.alias (.int count))) result = .ok counted ∧
        (∀ aggregate ∈ aggregates, counted.get aggregate.alias = .int (number aggregate)) ∧
        (∀ name, name ∉ aggregates.map AggregateRequest.alias →
          counted.get name = result.get name) ∧
        ∀ name, result.has name = true → counted.has name = true := by
    intro aggregates
    induction aggregates with
    | nil => exact fun result _ => ⟨result, rfl, nofun, fun name _ => rfl, fun name has => has⟩
    | cons aggregate aggregates induction =>
        intro result each
        rw [List.forall_mem_cons] at each
        obtain ⟨counted, done, counts, keeps, has⟩ :=
          induction (result.set aggregate.alias (.int (number aggregate))) each.2
        refine ⟨counted, ?_, ?_, ?_, fun name before => has name (Record.has_set before)⟩
        · rw [List.foldlM_cons, each.1]
          exact done
        · rw [List.forall_mem_cons]
          refine ⟨?_, counts⟩
          by_cases again : aggregate ∈ aggregates
          · exact counts aggregate again
          · rw [keeps, Record.get_set, if_pos rfl]
            intro counted
            obtain ⟨other, isOther, same⟩ := List.mem_map.mp counted
            exact again (alias_injective same ▸ isOther)
        · intro name missing
          rw [List.map_cons, List.mem_cons, not_or] at missing
          rw [keeps name missing.2, Record.get_set, if_neg missing.1]
  exact general spec.aggregates record each

end Counts

end Sql

end ResourceServer
