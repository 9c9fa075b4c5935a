import ResourceServer.Proofs.Sql.Selecting

/-!
# Selected rows stand for records

A selected row with its counts stands for a record with the same counts.  Its shown columns are what
the record is projected to, and sort keys order selected rows as fields order the records, so where
no two records tie the rows in the order of a database stand for the sorted records one by one.
-/

namespace ResourceServer

theorem distinctNames_append {names others : List String} (nodup : names.Nodup)
    (apart : ∀ name ∈ others, name ∉ names) :
    distinctNames (names ++ others) = names ++ distinctNames others := by
  unfold distinctNames
  have collect : ∀ (items kept : List String), (kept ++ items).Nodup →
      items.foldl (fun kept name => if kept.contains name then kept else kept ++ [name]) kept =
        kept ++ items := by
    intro items
    induction items with
    | nil => simp
    | cons item items induction =>
        intro kept nodup
        have new : item ∉ kept := fun member =>
          (List.nodup_append.mp nodup).2.2 item member item List.mem_cons_self rfl
        rw [List.foldl_cons, if_neg (by simpa using new), induction _ (by simpa using nodup)]
        simp
  have shift : ∀ (items kept : List String), (∀ name ∈ items, name ∉ names) →
      items.foldl (fun kept name => if kept.contains name then kept else kept ++ [name])
          (names ++ kept) =
        names ++ items.foldl (fun kept name =>
          if kept.contains name then kept else kept ++ [name]) kept := by
    intro items
    induction items with
    | nil => exact fun kept _ => rfl
    | cons item items induction =>
        intro kept apart
        rw [List.forall_mem_cons] at apart
        have known : (names ++ kept).contains item = kept.contains item := by
          rw [Bool.eq_iff_iff]
          simp [apart.1]
        rw [List.foldl_cons, List.foldl_cons, known]
        split
        · exact induction kept apart.2
        · rw [List.append_assoc]
          exact induction (kept ++ [item]) apart.2
  rw [List.foldl_append, collect names [] (by simpa using nodup)]
  simpa using shift others [] apart

namespace Sql

/-! ## Rows with their counts -/

/-- A field that rows can be sorted by in both stores: a count that the query asks for, or a column
of whole numbers, texts or flags. -/
def Sortable (spec : QuerySpec) (field : String) : Prop :=
  field ∈ spec.aggregateAliases ∨
    ∃ column, spec.resource.model.column? field = some column ∧ column.type.isPlain = true

/-- A query that means the same for both stores: it sorts by sortable fields, selects and counts what
the schema has, and no count has the name of a column that it selects. -/
structure QuerySuits (registry : Registry) (spec : QuerySpec) : Prop where
  registered : spec.resource ∈ registry.resources
  distinct : spec.resource.columns.Nodup
  conditions : ConditionsSuit spec
  sorts : ∀ directive ∈ spec.sorts, Sortable spec directive.field
  key : ∃ column, spec.resource.model.column? spec.resource.keyName = some column ∧
    column.type.isPlain = true
  selected : ∀ name ∈ spec.selectedColumns, name ∈ spec.resource.columns
  counted : ∀ aggregate ∈ spec.aggregates, ∃ relation target ownerColumn targetColumn,
    Countable registry spec.resource aggregate.relation relation target ownerColumn targetColumn
  apart : ∀ name ∈ spec.aggregateAliases, name ∉ spec.selectedColumns

/-- A selected row stands for a record with its counts. -/
structure Shows (spec : QuerySpec) (record : Record) (selected : Selected) : Prop where
  keeps : ∀ column, spec.resource.model.column? column.name = some column →
    column.name ∉ spec.aggregateAliases →
      Keeps column (record.get column.name) (selected.row.cell column.name)
  counts : ∀ entry ∈ selected.counts, record.get entry.1 = .int entry.2
  names : selected.counts.map Prod.fst = distinctNames spec.aggregateAliases
  complete : ∀ name ∈ spec.resource.model.columnNames, record.has name = true

/-- A row with the counts that are taken in some tables. -/
def selectedOf (targets : List (CountColumn × Table)) (row : Row) : Selected :=
  ⟨row, targets.map fun (count, target) => (count.label, countFor count target row)⟩

theorem key_mem_selectedColumns {registry : Registry} {spec : QuerySpec}
    (suits : QuerySuits registry spec) : spec.resource.keyName ∈ spec.selectedColumns := by
  unfold QuerySpec.selectedColumns
  cases spec.columns with
  | none =>
      obtain ⟨column, found, _⟩ := suits.key
      rw [← Model.name_of_column? found]
      exact List.mem_map_of_mem (List.mem_of_find?_eq_some found)
  | some columns => exact mem_distinctNames.mpr List.mem_cons_self

theorem nodup_selectedColumns {registry : Registry} {spec : QuerySpec}
    (suits : QuerySuits registry spec) : spec.selectedColumns.Nodup := by
  unfold QuerySpec.selectedColumns
  cases spec.columns with
  | none => exact suits.distinct
  | some columns => exact nodup_distinctNames _

section Rows

variable {registry : Registry} {contents : Contents} {database : Database} {spec : QuerySpec}
  {counts : List CountColumn} {tables : List Table}

/-- The record that a row keeps gets the counts that are selected with the row. -/
theorem shows_of_mirrors
    (each : ∀ aggregate ∈ spec.aggregates,
      ∃ count table, CountsFor registry contents database spec.resource aggregate count table)
    (labels : counts.map CountColumn.label = distinctNames spec.aggregateAliases)
    (stand : List.Forall₂ (fun count table => ∃ aggregate ∈ spec.aggregates,
      CountsFor registry contents database spec.resource aggregate count table) counts tables)
    {record : Record} {row : Row} (mirrors : Mirrors spec.resource.model record row) :
    ∃ counted, contents.withCounts registry spec record = .ok counted ∧
      Shows spec counted (selectedOf (counts.zip tables) row) ∧
      ∀ name, name ∉ spec.aggregateAliases → counted.get name = record.get name := by
  let number := fun aggregate : AggregateRequest =>
    ((contents.relatedCount registry spec.resource aggregate.relation record).toOption).getD 0
  have numbered : ∀ aggregate ∈ spec.aggregates,
      contents.relatedCount registry spec.resource aggregate.relation record =
        .ok (number aggregate) := by
    intro aggregate isAggregate
    obtain ⟨count, table, countsFor⟩ := each aggregate isAggregate
    simp only [number, countsFor.agrees record row mirrors.keeps]
    rfl
  obtain ⟨counted, done, countsOf, keepsRest, has⟩ := withCounts_eq numbered
  refine ⟨counted, done, ⟨?_, ?_, ?_, ?_⟩, keepsRest⟩
  · intro column found notCount
    rw [keepsRest column.name notCount]
    exact mirrors.keeps column found
  · intro entry isEntry
    obtain ⟨⟨count, table⟩, isCount, rfl⟩ := List.mem_map.mp isEntry
    obtain ⟨aggregate, isAggregate, countsFor⟩ := List.forall₂_zip stand isCount
    have sameNumber := numbered aggregate isAggregate
    rw [countsFor.agrees record row mirrors.keeps, Except.ok.injEq] at sameNumber
    change counted.get count.label = .int (countFor count table row)
    rw [countsFor.label, countsOf aggregate isAggregate, sameNumber]
  · rw [← labels, selectedOf, List.map_map]
    change (counts.zip tables).map (CountColumn.label ∘ Prod.fst) = _
    rw [← List.map_map, List.map_fst_zip (by rw [stand.length_eq])]
  · exact fun name isColumn => has name (mirrors.complete name isColumn)

/-- What memory selects from records stands for what is selected from the rows that keep them. -/
theorem selectRows_shows
    {cells : List (Condition Cell)} {targets : List (CountColumn × Table)}
    {records : List Record} {rows : List Row}
    (mirror : List.Forall₂ (Mirrors spec.resource.model) records rows)
    (matching : ∀ record ∈ records, ∀ row, RowKeeps spec.resource.model record row →
      Contents.rowMatches spec record = .ok (Condition.select cells row))
    (counting : ∀ record row, Mirrors spec.resource.model record row →
      ∃ counted, contents.withCounts registry spec record = .ok counted ∧
        Shows spec counted (selectedOf targets row) ∧
        ∀ name, name ∉ spec.aggregateAliases → counted.get name = record.get name)
    (keyIsColumn : spec.resource.keyName ∉ spec.aggregateAliases) :
    ∃ chosen, contents.selectRows registry spec records = .ok chosen ∧
      List.Forall₂ (Shows spec) chosen
        ((rows.filter (Condition.select cells)).map (selectedOf targets)) ∧
      (chosen.map fun record => record.get spec.resource.keyName).Sublist
        (records.map fun record => record.get spec.resource.keyName) ∧
      Contents.countRows spec records = .ok (rows.filter (Condition.select cells)).length := by
  induction mirror with
  | nil => exact ⟨[], rfl, List.Forall₂.nil, List.Sublist.refl _, rfl⟩
  | @cons record row records rows mirrors others induction =>
      rw [List.forall_mem_cons] at matching
      obtain ⟨chosen, selected, shows, keys, count⟩ := induction matching.2
      have first := matching.1 row mirrors.keeps
      rw [Contents.selectRows, Contents.countRows, first, selected, count]
      cases holds : Condition.select cells row with
      | false =>
          rw [List.filter_cons_of_neg (by simp [holds])]
          exact ⟨chosen, rfl, shows, keys.cons _, rfl⟩
      | true =>
          obtain ⟨counted, counts, showsFirst, keeps⟩ := counting record row mirrors
          rw [List.filter_cons_of_pos holds, List.map_cons, counts]
          refine ⟨counted :: chosen, rfl, List.Forall₂.cons showsFirst shows, ?_, rfl⟩
          rw [List.map_cons, List.map_cons, keeps _ keyIsColumn]
          exact keys.cons_cons _

end Rows

/-! ## Columns of a result -/

/-- The shown columns of a row are those of the record that it stands for. -/
theorem Shows.toRecord {registry : Registry} {spec : QuerySpec} {record : Record}
    {selected : Selected} (shows : Shows spec record selected) (suits : QuerySuits registry spec)
    {columns : List Column}
    (found : List.Forall₂ (fun name column => spec.resource.model.column? name = some column)
      spec.selectedColumns columns) :
    record.project (Contents.resultNames spec) = selected.toRecord columns := by
  have named : Contents.resultNames spec =
      spec.selectedColumns ++ selected.counts.map Prod.fst := by
    rw [shows.names, Contents.resultNames]
    exact distinctNames_append (nodup_selectedColumns suits) suits.apart
  have read : List.Forall₂ (fun name column =>
      (name, record.get name) = (column.name, (selected.row.cell column.name).read column.type))
      spec.selectedColumns columns := by
    rw [List.forall₂_iff_zip] at found ⊢
    refine ⟨found.1, fun {name column} both => ?_⟩
    have isColumn := found.2 both
    have isName := Model.name_of_column? isColumn
    subst isName
    have keeps := shows.keeps column isColumn fun isCount =>
      suits.apart _ isCount (List.of_mem_zip both).1
    rw [keeps.read]
  rw [Record.project, named, List.map_append, List.map_map, Selected.toRecord]
  congr 1
  · rw [← List.forall₂_eq_eq_eq, List.forall₂_map_left_iff, List.forall₂_map_right_iff]
    exact read
  · apply List.map_congr_left
    intro entry isEntry
    rw [Function.comp_apply, shows.counts entry isEntry]

/-! ## The order of a result -/

/-- A sort key that orders selected rows as a field orders the records that they stand for. -/
def OrdersAs (spec : QuerySpec) (directive : SortDirective) (key : SortKey × SortDirection) : Prop :=
  key.2 = directive.direction ∧ ∀ record selected, Shows spec record selected →
    Selected.sortCell selected key.1 = Cell.ofPlain (record.get directive.field)

section Order

variable {spec : QuerySpec} {chosen sorted : List Record} {rows : List Selected}

theorem sortCell_count {record : Record} {selected : Selected} (shows : Shows spec record selected)
    {count : CountColumn} (isCount : count.label ∈ spec.aggregateAliases) :
    selected.sortCell (.count count) = Cell.ofPlain (record.get count.label) := by
  have named : (selected.counts.map Prod.fst).Nodup := by
    rw [shows.names]
    exact nodup_distinctNames _
  have member : count.label ∈ selected.counts.map Prod.fst := by
    rw [shows.names]
    exact mem_distinctNames.mpr isCount
  obtain ⟨entry, isEntry, label⟩ := List.mem_map.mp member
  rw [← label, shows.counts entry isEntry, Selected.sortCell, ← label,
    Entries.lookup_of_mem named isEntry]
  rfl

/-- What a sortable field of a query names in a database. -/
theorem sortKey_of_sortable {counts : List CountColumn}
    (labels : counts.map CountColumn.label = distinctNames spec.aggregateAliases)
    {directive : SortDirective} (sortable : Sortable spec directive.field) :
    ∃ key, SortKey.ofField spec.resource.model counts directive.field = .ok key ∧
      OrdersAs spec directive (key, directive.direction) := by
  unfold SortKey.ofField
  by_cases isCount : directive.field ∈ spec.aggregateAliases
  · have known : directive.field ∈ counts.map CountColumn.label := by
      rw [labels]
      exact mem_distinctNames.mpr isCount
    obtain ⟨given, isGiven, label⟩ := List.mem_map.mp known
    cases found : counts.find? fun count => count.label == directive.field with
    | none =>
        have missing := List.find?_eq_none.mp found given isGiven
        simp [label] at missing
    | some count =>
        have label : count.label = directive.field := by simpa using List.find?_some found
        refine ⟨.count count, rfl, rfl, fun record selected shows => ?_⟩
        rw [← label] at isCount ⊢
        exact sortCell_count shows isCount
  · have none : counts.find? (fun count => count.label == directive.field) = none := by
      rw [List.find?_eq_none]
      intro count isGiven same
      apply isCount
      rw [← mem_distinctNames, ← labels, ← beq_iff_eq.mp same]
      exact List.mem_map_of_mem isGiven
    rw [none]
    cases sortable with
    | inl counted => exact absurd counted isCount
    | inr plain =>
        obtain ⟨column, found, plain⟩ := plain
        refine ⟨.column column, by rw [queryColumn, found]; rfl, rfl, fun record selected shows => ?_⟩
        have named := Model.name_of_column? found
        rw [← named] at found isCount ⊢
        exact (shows.keeps column found isCount).eq_ofPlain plain

theorem order_eq {directives : List SortDirective} {order : List (SortKey × SortDirection)}
    (keys : List.Forall₂ (OrdersAs spec) directives order) {record other : Record}
    {selected otherSelected : Selected} (shows : Shows spec record selected)
    (showsOther : Shows spec other otherSelected) :
    Selected.order order selected otherSelected = recordOrder directives record other := by
  induction keys with
  | nil => rfl
  | @cons directive key directives order first rest induction =>
      obtain ⟨key, direction⟩ := key
      obtain ⟨rfl, cells⟩ := first
      simp only [Selected.order, recordOrder]
      rw [induction, cells record selected shows, cells other otherSelected showsOther]
      cases directive.direction <;> rfl

theorem alike_of_typed {type : ColumnType} (plain : type.isPlain = true) {value other : Value}
    (typed : value = .null ∨ type.owns value = true)
    (typedOther : other = .null ∨ type.owns other = true) : value.alike other = true := by
  cases typed with
  | inl null =>
      cases typedOther with
      | inl nullOther =>
          rw [null, nullOther]
          rfl
      | inr owned =>
          rw [null]
          rcases ColumnType.owns_cases plain owned with
            ⟨_, _, rfl, _⟩ | ⟨_, _, rfl⟩ | ⟨_, _, rfl⟩ <;> rfl
  | inr owned =>
      rcases ColumnType.owns_cases plain owned with
        ⟨rfl, _, rfl, _⟩ | ⟨rfl, _, rfl⟩ | ⟨rfl, _, rfl⟩ <;>
      cases typedOther with
      | inl nullOther =>
          rw [nullOther]
          rfl
      | inr ownedOther =>
          cases other <;> first | rfl | cases ownedOther

/-- The values of a sortable field can be sorted in every result. -/
theorem uniform_of_shows (shows : List.Forall₂ (Shows spec) chosen rows) {field : String}
    (sortable : Sortable spec field) : Uniform field chosen := by
  have shown : ∀ record ∈ chosen, ∃ selected, Shows spec record selected := by
    intro record isChosen
    obtain ⟨selected, _, shows⟩ := exists_of_mem_right shows.flip isChosen
    exact ⟨selected, shows⟩
  intro record isChosen other otherIsChosen
  obtain ⟨selected, shows⟩ := shown record isChosen
  obtain ⟨otherSelected, showsOther⟩ := shown other otherIsChosen
  by_cases isCount : field ∈ spec.aggregateAliases
  · have isNumber : ∀ {record selected}, Shows spec record selected →
        ∃ number : Int, record.get field = .int number := by
      intro record selected shows
      have member : field ∈ selected.counts.map Prod.fst := by
        rw [shows.names]
        exact mem_distinctNames.mpr isCount
      obtain ⟨entry, isEntry, label⟩ := List.mem_map.mp member
      exact ⟨entry.2, label ▸ shows.counts entry isEntry⟩
    obtain ⟨number, isNumber⟩ := isNumber shows
    obtain ⟨otherNumber, otherIsNumber⟩ := ‹∀ {record selected}, Shows spec record selected → _› showsOther
    rw [isNumber, otherIsNumber]
    rfl
  · obtain counted | ⟨column, found, plain⟩ := sortable
    · exact absurd counted isCount
    · have named := Model.name_of_column? found
      subst named
      exact alike_of_typed plain (shows.keeps column found isCount).typed
        (showsOther.keeps column found isCount).typed

theorem eq_of_order_eq {value other : Value}
    (same : (Cell.ofPlain value).order (Cell.ofPlain other) = .eq) :
    Cell.ofPlain value = Cell.ofPlain other := by
  revert same
  cases value <;> cases other <;> simp [Cell.ofPlain, Cell.order]

/-- Records in the only order there is stand for the rows in the order of a database. -/
theorem sorted_alike (shows : List.Forall₂ (Shows spec) chosen rows)
    {directives : List SortDirective} {order : List (SortKey × SortDirection)}
    (keys : List.Forall₂ (OrdersAs spec) directives order)
    (uniform : ∀ directive ∈ directives, Uniform directive.field chosen)
    (apart : ∀ record ∈ chosen, ∀ other ∈ chosen,
      recordOrder directives record other = .eq → record = other)
    (perm : sorted.Perm chosen)
    (pairwise : sorted.Pairwise fun record other => recordOrder directives record other ≠ .gt)
    {given : List Selected} (permGiven : given.Perm rows) :
    List.Forall₂ (Shows spec) sorted
      (given.mergeSort fun left right => Selected.order order left right != .gt) := by
  have stands : ∀ selected ∈ given, ∃ record ∈ chosen, Shows spec record selected :=
    fun selected isGiven => exists_of_mem_right shows (permGiven.subset isGiven)
  have swapped : ∀ record ∈ chosen, ∀ other ∈ chosen,
      recordOrder directives other record = (recordOrder directives record other).swap :=
    fun record isRecord other isOther => recordOrder_swap fun directive isDirective =>
      uniform directive isDirective record isRecord other isOther
  have inOrder : (given.mergeSort fun left right => Selected.order order left right != .gt).Pairwise
      fun left right => (Selected.order order left right != .gt) = true := by
    apply pairwise_mergeSort_of_mem
    · intro first isFirst second isSecond third isThird
      obtain ⟨one, isOne, showsOne⟩ := stands first isFirst
      obtain ⟨two, isTwo, showsTwo⟩ := stands second isSecond
      obtain ⟨three, isThree, showsThree⟩ := stands third isThird
      rw [order_eq keys showsOne showsTwo, order_eq keys showsTwo showsThree,
        order_eq keys showsOne showsThree, bne_iff_ne, bne_iff_ne, bne_iff_ne]
      exact recordOrder_trans uniform one isOne two isTwo three isThree
    · intro first isFirst second isSecond
      obtain ⟨one, isOne, showsOne⟩ := stands first isFirst
      obtain ⟨two, isTwo, showsTwo⟩ := stands second isSecond
      rw [order_eq keys showsOne showsTwo, order_eq keys showsTwo showsOne,
        swapped one isOne two isTwo]
      cases recordOrder directives one two <;> rfl
  -- The records in the order of the database are in order too, and there is only one order.
  obtain ⟨arranged, permArranged, showsArranged⟩ :
      (Relation.Comp List.Perm (List.Forall₂ (Shows spec))) chosen
        (given.mergeSort fun left right => Selected.order order left right != .gt) := by
    rw [← List.forall₂_comp_perm_eq_perm_comp_forall₂]
    exact ⟨rows, shows, permGiven.symm.trans (List.mergeSort_perm given _).symm⟩
  have arrangedInOrder : arranged.Pairwise fun record other =>
      recordOrder directives record other ≠ .gt := by
    refine pairwise_of_forall₂ showsArranged inOrder fun record other selected otherSelected shows
      showsOther before => ?_
    rwa [order_eq keys shows showsOther, bne_iff_ne] at before
  have same : sorted = arranged := by
    refine List.Perm.eq_of_pairwise ?_ pairwise arrangedInOrder (perm.trans permArranged)
    intro record other isSorted isArranged before after
    have isRecord := perm.subset isSorted
    have isOther := permArranged.symm.subset isArranged
    apply apart record isRecord other isOther
    rw [swapped record isRecord other isOther] at after
    cases order : recordOrder directives record other with
    | eq => rfl
    | lt =>
        rw [order] at after
        exact absurd rfl after
    | gt => exact absurd order before
  rw [same]
  exact showsArranged

end Order

end Sql

end ResourceServer
