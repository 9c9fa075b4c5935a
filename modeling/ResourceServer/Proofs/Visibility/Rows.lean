import ResourceServer.Proofs.Memory.Narrowing
import ResourceServer.Proofs.Store.Separation
import ResourceServer.Proofs.Visibility.Sorting

/-!
# Rows that agree in what is visible

Some fields of every resource are visible.  When two stores hold the same rows but for fields
that are not, a specification that names visible fields only selects, counts and orders the
same rows in both.  The store itself looks at keys, at the marks of trashed rows and at the
columns that relations join by, so these have to be visible.
-/

namespace ResourceServer

/-- Which fields of the resource of a name are visible. -/
abbrev Visibility := (resource field : String) → Prop

/-! ## Records -/

/-- Two records have the same in the given fields: the same value, or nothing. -/
def Record.AgreeOn (fields : String → Prop) (left right : Record) : Prop :=
  ∀ name, fields name → left.get? name = right.get? name

namespace Record.AgreeOn

variable {fields : String → Prop} {left right : Record} {name : String}

theorem get (agree : AgreeOn fields left right) (isField : fields name) :
    left.get name = right.get name := by
  have found := agree name isField
  rw [get?, get?] at found
  rw [Record.get, Record.get, found]

theorem has (agree : AgreeOn fields left right) (isField : fields name) :
    left.has name = right.has name := by
  have found := congrArg Option.isSome (agree name isField)
  rwa [get?, get?, Entries.lookup_isSome, Entries.lookup_isSome] at found

theorem weaken {fewer : String → Prop} (agree : AgreeOn fields left right)
    (included : ∀ name, fewer name → fields name) : AgreeOn fewer left right :=
  fun name isField => agree name (included name isField)

theorem set (agree : AgreeOn fields left right) (name : String) (value : Value) :
    AgreeOn (fun other => other = name ∨ fields other) (left.set name value)
      (right.set name value) := by
  intro other isField
  have lookup (record : Record) :
      (record.set name value).get? other = if other = name then some value else record.get? other :=
    Entries.lookup_set record name other value
  rw [lookup, lookup]
  split
  · rfl
  · rename_i different
    exact agree other (isField.resolve_left different)

theorem project (agree : AgreeOn fields left right) (names : List String) :
    AgreeOn fields (left.project names) (right.project names) := by
  intro name isField
  have lookup (record : Record) : (record.project names).get? name =
      if name ∈ names then some (record.get name) else none := by
    induction names with
    | nil => rfl
    | cons first rest induction =>
        change List.lookup name ((first, record.get first) :: Record.project record rest) = _
        rw [Entries.lookup_cons]
        by_cases same : name = first
        · simp [same]
        · rw [get?] at induction
          rw [if_neg same, induction]
          simp [same]
  rw [lookup, lookup, agree.get isField]

theorem refl (row : Record) : AgreeOn fields row row := fun _ _ => rfl

/-- Rows that differ in a column at their end. -/
theorem append {column : String} (hidden : ¬ fields column) (row : Record) (value other : Value) :
    AgreeOn fields (row ++ [(column, value)]) (row ++ [(column, other)]) := by
  intro field isField
  have different : field ≠ column := by
    rintro rfl
    exact hidden isField
  rw [get?, get?, List.lookup_append, List.lookup_append, Entries.lookup_cons,
    Entries.lookup_cons, if_neg different, if_neg different]

end Record.AgreeOn

/-! ## Conditions -/

section Conditions

variable {left right : Record}

namespace Filter

theorem Leaf.evaluate_congr (leaf : Leaf) (same : left.get leaf.field = right.get leaf.field) :
    leaf.evaluate left = leaf.evaluate right := by
  unfold evaluate
  rw [same]

namespace Node

mutual

/-- A filter looks at no fields but those it names. -/
theorem evaluate_congr (node : Node)
    (same : ∀ field ∈ node.fields, left.get field = right.get field) :
    evaluate left node = evaluate right node := by
  cases node with
  | leaf comparison =>
      rw [evaluate, evaluate]
      exact comparison.evaluate_congr (same _ (by simp [fields]))
  | group combinator children =>
      cases children with
      | nil => rfl
      | cons first rest =>
          rw [fields, fieldsOf, List.forall_mem_append] at same
          rw [evaluate, evaluate, evaluate_congr first same.1]
          congr 1
          funext holds
          exact evaluateRest_congr holds rest same.2

theorem evaluateRest_congr (holds : Bool) (nodes : List Node)
    (same : ∀ field ∈ fieldsOf nodes, left.get field = right.get field) :
    evaluateRest left holds nodes = evaluateRest right holds nodes := by
  cases nodes with
  | nil => rfl
  | cons node rest =>
      rw [fieldsOf, List.forall_mem_append] at same
      have goesOn : (evaluate left node >>= fun next => evaluateRest left next rest) =
          evaluate right node >>= fun next => evaluateRest right next rest := by
        rw [evaluate_congr node same.1]
        congr 1
        funext next
        exact evaluateRest_congr next rest same.2
      rw [evaluateRest, evaluateRest, goesOn, evaluateRest_congr false rest same.2]

end

end Node

theorem evaluateAll_congr {nodes : List Node}
    (same : ∀ node ∈ nodes, ∀ field ∈ node.fields, left.get field = right.get field) :
    evaluateAll left nodes = evaluateAll right nodes := by
  induction nodes with
  | nil => rfl
  | cons node rest induction =>
      rw [List.forall_mem_cons] at same
      rw [evaluateAll, evaluateAll, node.evaluate_congr same.1, induction same.2]

end Filter

theorem SearchTerm.evaluate_congr (term : SearchTerm)
    (same : ∀ field ∈ term.fields, left.get field = right.get field) :
    term.evaluate left = term.evaluate right := by
  unfold evaluate
  rw [Bool.eq_iff_iff, List.any_eq_true, List.any_eq_true]
  refine exists_congr fun field => and_congr_right fun member => ?_
  rw [same field member]

end Conditions

/-! ## What is looked at -/

/-- The fields that requests may name are visible, and so are those that the store looks at on
its own: keys, marks of trashed rows and the columns that relations join by. -/
structure Registry.Exposes (registry : Registry) (visible : Visibility) : Prop where
  listed : ∀ resource ∈ registry.resources,
    ∀ field ∈ resource.filterable ++ resource.sortable ++ resource.searchable,
      visible resource.name field
  key : ∀ resource ∈ registry.resources, visible resource.name resource.keyName
  deletedAt : ∀ resource ∈ registry.resources, resource.softDeletes = true →
    visible resource.name resource.deletedAtColumn
  joining : ∀ owner ∈ registry.resources, ∀ entry ∈ owner.relations, ∀ target,
    registry.resource entry.2.target = .ok target →
      visible owner.name (entry.2.ownerField owner target) ∧
        visible target.name (entry.2.targetField owner target)

/-- The fields that rows are shown with for certain: the visible ones and the counts. -/
def QuerySpec.Shown (visible : Visibility) (spec : QuerySpec) (field : String) : Prop :=
  field ∈ spec.aggregateAliases ∨ visible spec.resource.name field

/-- A specification names no fields but visible ones, and sorts by these and by its counts. -/
structure QuerySpec.NamesVisible (visible : Visibility) (spec : QuerySpec) : Prop where
  wheres : ∀ node ∈ spec.wheres, ∀ field ∈ node.fields, visible spec.resource.name field
  search : ∀ term ∈ spec.searchTerm, ∀ field ∈ term.fields, visible spec.resource.name field
  sorts : ∀ directive ∈ spec.sorts, spec.Shown visible directive.field

namespace Contents

/-- Two stores with the same rows but for fields that are not visible. -/
def Alike (visible : Visibility) (left right : Contents) : Prop :=
  ∀ resource, List.Forall₂ (Record.AgreeOn (visible resource)) (left.table resource).rows
    (right.table resource).rows

/-- Tables of the same names in the same order, with rows that agree in what is visible. -/
theorem alike_of_tables {visible : Visibility} {left right : Contents}
    (agree : List.Forall₂ (fun table other : String × Table => table.1 = other.1 ∧
      List.Forall₂ (Record.AgreeOn (visible table.1)) table.2.rows other.2.rows)
      left.tables right.tables) :
    left.Alike visible right := by
  obtain ⟨tables, sequences⟩ := left
  obtain ⟨otherTables, otherSequences⟩ := right
  intro resource
  unfold table
  dsimp only at agree ⊢
  induction agree with
  | nil => exact .nil
  | @cons table other rest others first _ induction =>
      obtain ⟨name, entries⟩ := table
      obtain ⟨otherName, otherEntries⟩ := other
      obtain ⟨rfl, rows⟩ := first
      rw [Entries.lookup_cons, Entries.lookup_cons]
      by_cases isTable : resource = name
      · rw [if_pos isTable, if_pos isTable, isTable]
        exact rows
      · rw [if_neg isTable, if_neg isTable]
        exact induction

section Selection

variable {registry : Registry} {visible : Visibility} {left right : Contents} {spec : QuerySpec}
variable {row other : Record}

theorem isTrashed_congr (exposes : registry.Exposes visible) {resource : Resource}
    (registered : resource ∈ registry.resources)
    (agree : Record.AgreeOn (visible resource.name) row other) :
    resource.isTrashed row = resource.isTrashed other := by
  unfold Resource.isTrashed
  cases softDeletes : resource.softDeletes with
  | false => rfl
  | true => rw [agree.get (exposes.deletedAt resource registered softDeletes)]

theorem rowMatches_congr (exposes : registry.Exposes visible)
    (registered : spec.resource ∈ registry.resources) (names : spec.NamesVisible visible)
    (agree : Record.AgreeOn (visible spec.resource.name) row other) :
    rowMatches spec row = rowMatches spec other := by
  have scope : inScope spec row = inScope spec other := by
    unfold inScope
    rw [isTrashed_congr exposes registered agree]
  have filters : Filter.evaluateAll row spec.wheres = Filter.evaluateAll other spec.wheres :=
    Filter.evaluateAll_congr fun node member field isField =>
      agree.get (names.wheres node member field isField)
  have found : spec.searchTerm.all (fun term => term.evaluate row) =
      spec.searchTerm.all fun term => term.evaluate other := by
    cases search : spec.searchTerm with
    | none => rfl
    | some term =>
        exact term.evaluate_congr fun field isField =>
          agree.get (names.search term search field isField)
  unfold rowMatches
  rw [scope, filters, found]

theorem countRows_congr (exposes : registry.Exposes visible)
    (registered : spec.resource ∈ registry.resources) (names : spec.NamesVisible visible)
    {rows others : List Record}
    (agree : List.Forall₂ (Record.AgreeOn (visible spec.resource.name)) rows others) :
    countRows spec rows = countRows spec others := by
  induction agree with
  | nil => rfl
  | cons agree _ induction =>
      rw [countRows, countRows, rowMatches_congr exposes registered names agree, induction]

/-- Counts are taken over columns that relations join by, so they are the same. -/
theorem relatedCount_congr (exposes : registry.Exposes visible) (alike : left.Alike visible right)
    {owner : Resource} (registered : owner ∈ registry.resources)
    (agree : Record.AgreeOn (visible owner.name) row other) (name : String) :
    relatedCount registry left owner name row = relatedCount registry right owner name other := by
  unfold relatedCount
  cases declared : owner.relation name with
  | error error => rfl
  | ok relation =>
      cases known : registry.resource relation.target with
      | error error => simp only [known, bind, Except.bind]
      | ok target =>
          have visibleFields := exposes.joining owner registered _
            (Resource.mem_of_relation declared) target known
          have isTarget := Registry.mem_of_resource known
          have count (value : Value) :
              ((left.table target.name).rows.countP fun related =>
                (related.get (relation.targetField owner target)).same value &&
                  !target.isTrashed related) =
                (right.table target.name).rows.countP fun related =>
                  (related.get (relation.targetField owner target)).same value &&
                    !target.isTrashed related :=
            countP_eq_of_forall₂ (alike target.name) fun _ _ agree => by
              rw [agree.get visibleFields.2, isTrashed_congr exposes isTarget agree]
          simp only [known, bind, Except.bind, agree.get visibleFields.1, count]

theorem withCounts_corresponds (exposes : registry.Exposes visible)
    (alike : left.Alike visible right) (registered : spec.resource ∈ registry.resources)
    (agree : Record.AgreeOn (visible spec.resource.name) row other) :
    Corresponds (Record.AgreeOn (spec.Shown visible)) (withCounts registry left spec row)
      (withCounts registry right spec other) := by
  unfold withCounts
  -- A count that is set joins the fields in which the results agree.
  have general : ∀ (aggregates : List AggregateRequest) (fields : String → Prop)
      (result otherResult : Record), Record.AgreeOn fields result otherResult →
      Corresponds
        (Record.AgreeOn fun field => field ∈ aggregates.map AggregateRequest.alias ∨ fields field)
        (aggregates.foldlM (fun result aggregate => do
          let count ← relatedCount registry left spec.resource aggregate.relation row
          .ok (Record.set result aggregate.alias (.int count))) result)
        (aggregates.foldlM (fun result aggregate => do
          let count ← relatedCount registry right spec.resource aggregate.relation other
          .ok (Record.set result aggregate.alias (.int count))) otherResult) := by
    intro aggregates
    induction aggregates with
    | nil => exact fun fields result otherResult agree => .ok (agree.weaken (by simp))
    | cons aggregate rest induction =>
        intro fields result otherResult agreeSoFar
        rw [List.foldlM_cons, List.foldlM_cons,
          relatedCount_congr exposes alike registered agree aggregate.relation]
        cases relatedCount registry right spec.resource aggregate.relation other with
        | error error => exact .error error
        | ok count =>
            have agreeNext := agreeSoFar.set aggregate.alias (.int count)
            refine (induction _ _ _ agreeNext).weaken fun _ _ agree => agree.weaken ?_
            intro field
            simp only [List.map_cons, List.mem_cons]
            tauto
  exact general spec.aggregates _ row other agree

theorem selectRows_corresponds (exposes : registry.Exposes visible)
    (alike : left.Alike visible right) (registered : spec.resource ∈ registry.resources)
    (names : spec.NamesVisible visible) {rows others : List Record}
    (agree : List.Forall₂ (Record.AgreeOn (visible spec.resource.name)) rows others) :
    Corresponds (List.Forall₂ (Record.AgreeOn (spec.Shown visible)))
      (selectRows registry left spec rows) (selectRows registry right spec others) := by
  induction agree with
  | nil => exact .ok .nil
  | cons agree _ induction =>
      rw [selectRows, selectRows, rowMatches_congr exposes registered names agree]
      refine .bind_same _ fun holds => ?_
      split
      · refine .bind (withCounts_corresponds exposes alike registered agree) ?_
        intro counted otherCounted agree
        exact .bind induction fun _ _ others => .ok (.cons agree others)
      · exact induction

theorem forall₂_window {relation : Record → Record → Prop} {rows others : List Record}
    (related : List.Forall₂ relation rows others) (offset limit : Option Int) :
    List.Forall₂ relation (window offset limit rows) (window offset limit others) := by
  unfold window
  cases limit with
  | none => exact forall₂_sliceFrom related _
  | some limit => exact forall₂_sliceBetween related _ _

/-- From alike stores, a specification fetches rows that agree in what is visible, in the same
order. -/
theorem fetchRows_corresponds (exposes : registry.Exposes visible)
    (alike : left.Alike visible right) (registered : spec.resource ∈ registry.resources)
    (names : spec.NamesVisible visible) (offset limit : Option Int) :
    Corresponds (List.Forall₂ (Record.AgreeOn (spec.Shown visible)))
      (left.fetchRows registry spec offset limit) (right.fetchRows registry spec offset limit) := by
  have keyShown : spec.Shown visible spec.resource.keyName :=
    .inr (exposes.key spec.resource registered)
  refine .bind (selectRows_corresponds exposes alike registered names (alike _)) ?_
  intro rows others agree
  have keyed : rows.any (fun row => !Record.has row spec.resource.keyName) =
      others.any fun row => !Record.has row spec.resource.keyName :=
    any_eq_of_forall₂ agree fun _ _ agree => by rw [agree.has keyShown]
  rw [keyed]
  split
  · exact .error _
  · refine .bind (Record.sortBy_corresponds (fun _ _ agree => agree.get keyShown) _ agree) ?_
    intro byKey otherByKey agree
    refine .bind (Record.sortByAll_corresponds (fun directive member _ _ agree =>
      agree.get (names.sorts directive member)) agree) ?_
    intro sorted otherSorted agree
    refine .ok ?_
    rw [List.forall₂_map_left_iff, List.forall₂_map_right_iff]
    exact (forall₂_window agree offset limit).imp fun _ _ agree => agree.project _

end Selection

end Contents

end ResourceServer
