import ResourceServer.Proofs.Memory.Narrowing

/-!
# Related rows

Joining columns hold null, whole numbers or texts, and such values coincide only when they
are the same.  The rows related to some joining values are found by one query, and those
related to a single one of them are the rows of its result that hold this value.
-/

namespace ResourceServer

namespace Value

/-- Null, a whole number or a text: what a joining column holds. -/
def isJoining : Value → Bool
  | .null => true
  | .int _ => true
  | .text _ => true
  | _ => false

theorem coincides_of_joining {left right : Value} (leftJoins : left.isJoining = true)
    (rightJoins : right.isJoining = true) : left.coincides right = true ↔ left = right := by
  cases left with
  | null => rw [null_coincides, eq_comm]
  | text text => rw [text_coincides]
  | int number =>
      rw [number_coincides rfl rfl]
      cases right with
      | int other => simp [number?, Number.isNaN, Number.rank_whole]
      | null => simp [number?]
      | text text => simp [number?]
      | _ => cases rightJoins
  | _ => cases leftJoins

theorem orderly_of_joining {value : Value} (joins : value.isJoining = true) : value.Orderly := by
  cases value with
  | null => exact .null
  | int number => exact .number rfl rfl
  | text text => exact .text text
  | _ => cases joins

theorem mem_of_isIn {value : Value} {values : List Value} (joins : value.isJoining = true)
    (allJoin : ∀ other ∈ values, other.isJoining = true) :
    value.isIn values = true ↔ value ∈ values := by
  unfold isIn
  rw [List.any_eq_true]
  constructor
  · rintro ⟨other, member, coincide⟩
    rw [(coincides_of_joining joins (allJoin other member)).mp coincide]
    exact member
  · intro member
    exact ⟨value, member, (coincides_of_joining joins joins).mpr rfl⟩

theorem mem_distinct {values : List Value} (allJoin : ∀ value ∈ values, value.isJoining = true)
    {value : Value} : value ∈ distinct values ↔ value ∈ values := by
  unfold distinct
  have general : ∀ kept : List Value, (∀ value ∈ kept, value.isJoining = true) →
      (value ∈ values.foldl (fun kept item => if isIn item kept then kept else kept ++ [item]) kept ↔
        value ∈ kept ∨ value ∈ values) := by
    induction values with
    | nil => simp
    | cons item rest induction =>
        intro kept keptJoin
        rw [List.forall_mem_cons] at allJoin
        rw [List.foldl_cons]
        split
        · rename_i known
          have member := (mem_of_isIn allJoin.1 keptJoin).mp known
          rw [induction allJoin.2 kept keptJoin, List.mem_cons]
          constructor
          · exact Or.imp_right .inr
          · rintro (inKept | rfl | inRest)
            · exact .inl inKept
            · exact .inl member
            · exact .inr inRest
        · rw [induction allJoin.2 (kept ++ [item])]
          · simp [or_assoc]
          · simpa [or_imp, forall_and] using ⟨keptJoin, allJoin.1⟩
  simpa using general [] (by simp)

end Value

namespace Filter.Leaf

theorem itemReports_eq_nil {position : Nat} {values : List Value}
    (scalars : ∀ value ∈ values, isScalar value = true) : itemReports position values = [] := by
  induction values generalizing position with
  | nil => rfl
  | cons value rest induction =>
      rw [List.forall_mem_cons] at scalars
      rw [itemReports, if_pos scalars.1, induction scalars.2]
      rfl

theorem isScalar_of_joining {value : Value} (joins : value.isJoining = true)
    (given : value ≠ .null) : isScalar value = true := by
  cases value with
  | null => cases given rfl
  | int number => rfl
  | text text => rfl
  | _ => cases joins

theorem make_isIn {values : List Value} (field : String)
    (allJoin : ∀ value ∈ values, value.isJoining = true ∧ value ≠ .null) :
    make field .isIn (.list values) = .ok ⟨field, .isIn, .list values, .both⟩ := by
  have scalars : ∀ value ∈ values, isScalar value = true :=
    fun value member => isScalar_of_joining (allJoin value member).1 (allJoin value member).2
  have reports : operandReports (.list values) = [] := by
    simp only [operandReports, itemReports_eq_nil scalars]
  rw [make, reports]
  rfl

theorem make_eq {value : Value} (field : String) (joins : value.isJoining = true)
    (given : value ≠ .null) : make field .eq value = .ok ⟨field, .eq, value, .both⟩ := by
  cases value with
  | null => cases given rfl
  | int number => rfl
  | text text => rfl
  | _ => cases joins

/-- The leaf holds of the rows that have one of the values in the field. -/
def Joins (leaf : Leaf) (field : String) (values : List Value) : Prop :=
  ∀ row : Record, (row.get field).isJoining = true →
    leaf.evaluate row = .ok ((row.get field).isIn values)

theorem null_isIn {values : List Value} (given : .null ∉ values) :
    Value.null.isIn values = false := by
  unfold Value.isIn
  rw [List.any_eq_false]
  intro value member coincide
  rw [Value.null_coincides.mp coincide] at member
  exact given member

theorem evaluate_isIn {field : String} {values : List Value} (given : .null ∉ values)
    (row : Record) :
    (⟨field, .isIn, .list values, .both⟩ : Leaf).evaluate row =
      .ok ((row.get field).isIn values) := by
  cases values with
  | nil => rfl
  | cons first rest =>
      cases isNull : (row.get field).isNull with
      | true =>
          rw [Value.isNull_iff.mp isNull, null_isIn given]
          simp only [evaluate, evaluateMembership, isNull, if_true]
      | false => simp [evaluate, evaluateMembership, isNull]

theorem joins_isIn {field : String} {values : List Value} (given : .null ∉ values) :
    Joins ⟨field, .isIn, .list values, .both⟩ field values :=
  fun row _ => evaluate_isIn given row

theorem joins_eq {field : String} {value : Value} (given : value ≠ .null) :
    Joins ⟨field, .eq, value, .both⟩ field [value] := by
  intro row rowJoins
  simp only [evaluate]
  cases held : row.get field with
  | null =>
      rw [null_isIn (by simpa using given.symm)]
      rfl
  | int number => simp [Value.isNull, Value.isIn, Value.coincides, Value.isSameNaN]
  | text text => simp [Value.isNull, Value.isIn, Value.coincides, Value.isSameNaN]
  | _ =>
      rw [held] at rowJoins
      cases rowJoins

end Filter.Leaf

/-- The query for the rows of a resource that a joining leaf holds of. -/
def Resource.relatedSpec (target : Resource) (leaf : Filter.Leaf) (request : RelationRequest)
    (below : List RelationRequest) : QuerySpec where
  resource := target
  wheres := .leaf leaf :: request.filters.toList
  includes := mergeRequests below
  sorts := request.sort
  aggregates := sortAggregates target request

theorem relatedQuery_eq (target : Resource) (field : String) (values : List Value)
    (request : RelationRequest) (below : List RelationRequest) :
    relatedQuery target field values request below =
      (Filter.Leaf.make field .isIn (.list values)).map fun leaf =>
        target.relatedSpec leaf request below := by
  unfold relatedQuery QuerySpec.whereIn
  cases Filter.Leaf.make field .isIn (.list values) with
  | error error => rfl
  | ok leaf =>
      obtain ⟨path, filters, sort, window⟩ := request
      cases filters <;> rfl

theorem mem_distinctNames {names : List String} {name : String} :
    name ∈ distinctNames names ↔ name ∈ names := by
  unfold distinctNames
  have general : ∀ kept : List String,
      name ∈ names.foldl (fun kept name => if kept.contains name then kept else kept ++ [name])
        kept ↔ name ∈ kept ∨ name ∈ names := by
    induction names with
    | nil => simp
    | cons first rest induction =>
        intro kept
        rw [List.foldl_cons, induction]
        split
        · rename_i known
          have member : first ∈ kept := by simpa using known
          constructor
          · exact Or.imp_right (List.mem_cons_of_mem first)
          · rintro (inKept | member)
            · exact .inl inKept
            · cases List.mem_cons.mp member with
              | inl same => exact .inl (same ▸ ‹first ∈ kept›)
              | inr inRest => exact .inr inRest
        · simp [or_assoc]
  simpa using general []

theorem nodup_distinctNames (names : List String) : (distinctNames names).Nodup := by
  unfold distinctNames
  have general : ∀ kept : List String, kept.Nodup →
      (names.foldl (fun kept name => if kept.contains name then kept else kept ++ [name])
        kept).Nodup := by
    induction names with
    | nil => exact fun kept nodup => nodup
    | cons first rest induction =>
        intro kept nodup
        rw [List.foldl_cons]
        refine induction _ ?_
        split
        · exact nodup
        · rename_i unknown
          rw [List.nodup_append]
          refine ⟨nodup, by simp, ?_⟩
          rintro name member other isFirst rfl
          rw [List.mem_singleton.mp isFirst] at member
          exact unknown (List.contains_iff_mem.mpr member)
  exact general [] List.nodup_nil

namespace Contents

variable {registry : Registry} {contents : Contents} {target : Resource} {field : String}
variable {leaf narrow : Filter.Leaf} {request : RelationRequest} {below : List RelationRequest}
variable {values narrowed : List Value}

theorem rowMatches_related {row : Record}
    (evaluates : leaf.evaluate row = .ok ((row.get field).isIn values)) :
    rowMatches (target.relatedSpec leaf request below) row =
      if inScope (target.relatedSpec leaf request below) row then
        if (row.get field).isIn values then Filter.evaluateAll row request.filters.toList
        else .ok false
      else .ok false := by
  unfold rowMatches
  split
  · change (Filter.evaluateAll row (.leaf leaf :: request.filters.toList) >>= _) = _
    rw [Filter.evaluateAll, Filter.Node.evaluate, evaluates]
    cases (row.get field).isIn values with
    | false => rfl
    | true =>
        change (Filter.evaluateAll row request.filters.toList >>= _) = _
        cases Filter.evaluateAll row request.filters.toList with
        | error error => rfl
        | ok holds =>
            change Except.ok (holds && true) = .ok holds
            rw [Bool.and_true]
  · rfl

/-- A row that is related to one of some values matches a query for fewer of them when it is
related to one of the fewer. -/
theorem rowMatches_related_narrow {row : Record} {holds : Bool}
    (evaluates : leaf.evaluate row = .ok ((row.get field).isIn values))
    (evaluatesNarrow : narrow.evaluate row = .ok ((row.get field).isIn narrowed))
    (included : (row.get field).isIn narrowed = true → (row.get field).isIn values = true)
    (matching : rowMatches (target.relatedSpec leaf request below) row = .ok holds) :
    rowMatches (target.relatedSpec narrow request below) row =
      .ok (holds && (row.get field).isIn narrowed) := by
  rw [rowMatches_related evaluatesNarrow]
  rw [rowMatches_related evaluates] at matching
  change (if inScope (target.relatedSpec leaf request below) row then _ else _) = _
  cases scope : inScope (target.relatedSpec leaf request below) row with
  | false =>
      rw [scope] at matching
      cases matching
      rfl
  | true =>
      rw [scope, if_pos rfl] at matching
      rw [if_pos rfl]
      cases found : (row.get field).isIn narrowed with
      | false => rw [if_neg Bool.false_ne_true, Bool.and_false]
      | true =>
          rw [included found, if_pos rfl] at matching
          rw [if_pos rfl, Bool.and_true]
          exact matching

theorem isIn_mono {value : Value} (included : narrowed ⊆ values)
    (found : value.isIn narrowed = true) : value.isIn values = true := by
  obtain ⟨other, member, coincide⟩ := List.any_eq_true.mp found
  exact List.any_eq_true.mpr ⟨other, included member, coincide⟩

/-- Results of queries show what rows hold in a field: the rows hold nothing in it unless it is a
column. -/
def ShowsField (contents : Contents) (target : Resource) (field : String) : Prop :=
  field ∉ target.columns → ∀ row ∈ (contents.table target.name).rows, row.get field = .null

/-- The rows related to fewer values are found among those related to more of them by what they
hold before they are cut to the columns of the result. -/
theorem fetchRelated_keep
    (evaluates : ∀ row ∈ (contents.table target.name).rows,
      leaf.evaluate row = .ok ((row.get field).isIn values))
    (evaluatesNarrow : ∀ row ∈ (contents.table target.name).rows,
      narrow.evaluate row = .ok ((row.get field).isIn narrowed))
    (included : ∀ value : Value, value.isIn narrowed = true → value.isIn values = true)
    (uncounted : field ∉ (sortAggregates target request).map AggregateRequest.alias)
    (orderly : contents.OrderlyFor (target.relatedSpec leaf request below)) {rows : List Record}
    (fetched : contents.fetchRows registry (target.relatedSpec leaf request below) none none =
      .ok rows) :
    ∃ sorted : List Record,
      (∀ counted ∈ sorted, ∃ row ∈ (contents.table target.name).rows,
        counted.get field = row.get field) ∧
      rows = sorted.map (Record.project · (resultNames (target.relatedSpec leaf request below))) ∧
      contents.fetchRows registry (target.relatedSpec narrow request below) none none =
        .ok ((sorted.filter fun row => (Record.get row field).isIn narrowed).map
          (Record.project · (resultNames (target.relatedSpec leaf request below)))) := by
  have held : ∀ row counted : Record,
      withCounts registry contents (target.relatedSpec leaf request below) row = .ok counted →
        counted.get field = row.get field := by
    intro row counted counts
    cases get_withCounts counts with
    | inl isCount => cases uncounted isCount.1
    | inr kept => exact kept.2
  obtain ⟨sorted, counted, isShown, kept⟩ := fetchRows_keep orderly
    (fun row inTable _ matching => rowMatches_related_narrow (evaluates row inTable)
      (evaluatesNarrow row inTable) (included _) matching)
    (fun row _ counted counts => by rw [held row counted counts]) fetched
  refine ⟨sorted, ?_, isShown, kept⟩
  intro result isSorted
  obtain ⟨row, inTable, counts⟩ := counted result isSorted
  exact ⟨row, inTable, held row result counts⟩

/-- The rows related to fewer values are those of the rows related to more of them that hold one
of the fewer. -/
theorem fetchRelated_narrow (joins : leaf.Joins field values)
    (narrowJoins : narrow.Joins field narrowed) (included : narrowed ⊆ values)
    (rowsJoin : ∀ row ∈ (contents.table target.name).rows, (row.get field).isJoining = true)
    (shows : contents.ShowsField target field)
    (uncounted : field ∉ (sortAggregates target request).map AggregateRequest.alias)
    (orderly : contents.OrderlyFor (target.relatedSpec leaf request below)) {rows : List Record}
    (fetched : contents.fetchRows registry (target.relatedSpec leaf request below) none none =
      .ok rows) :
    contents.fetchRows registry (target.relatedSpec narrow request below) none none =
      .ok (rows.filter fun row => (row.get field).isIn narrowed) := by
  obtain ⟨sorted, held, rfl, kept⟩ := fetchRelated_keep
    (fun row inTable => joins row (rowsJoin row inTable))
    (fun row inTable => narrowJoins row (rowsJoin row inTable))
    (fun _ => isIn_mono included) uncounted orderly fetched
  rw [kept, List.filter_map]
  congr 2
  refine List.filter_congr fun counted isSorted => ?_
  rw [Function.comp_apply]
  by_cases shown : field ∈ resultNames (target.relatedSpec leaf request below)
  · rw [Record.get_project shown]
  · obtain ⟨row, inTable, holds⟩ := held counted isSorted
    have noColumn : field ∉ target.columns := by
      intro isColumn
      exact shown (mem_distinctNames.mpr (List.mem_append_left _ isColumn))
    rw [Record.get_project_other shown, holds, shows noColumn row inTable]

end Contents

end ResourceServer
