import ResourceServer.Proofs.Resolution.Specification
import ResourceServer.Proofs.Sql.Selecting
import ResourceServer.Proofs.Store.EagerLoading

/-!
# Counts of loaded relations

A count looks for related rows in the table that a relation leads to.  The relation itself is
loaded by one query for all entities, and what the query yields is shared out by the values that
it is joined by.  Both leave out trashed rows, and both find the same ones, as long as results show
the joining values as they are.
-/

namespace ResourceServer

/-- A joining value is found where an equal one is looked for. -/
theorem Value.coincides_eq_same {left : Value} (joins : left.isJoining = true) (right : Value) :
    left.coincides right = left.same right := by
  unfold coincides
  cases left with
  | null => rfl
  | int number => rfl
  | text text => rfl
  | _ => cases joins

/-! ## Rows -/

namespace Contents

variable {registry : Registry} {contents : Contents} {spec : QuerySpec} {target : Resource}
variable {field : String} {values : List Value} {request : RelationRequest}
variable {below : List RelationRequest}

/-- A test holds of as many selected rows as another one holds of rows, when it holds of a row with
its counts exactly if the other one holds of the row, and the other one holds only of rows that
match. -/
theorem countP_selectRows {test passes : Record → Bool} {rows selected : List Record}
    (matched : ∀ row ∈ rows, rowMatches spec row = .ok true → ∀ counted,
      withCounts registry contents spec row = .ok counted → test counted = passes row)
    (unmatched : ∀ row ∈ rows, rowMatches spec row = .ok false → passes row = false)
    (done : selectRows registry contents spec rows = .ok selected) :
    selected.countP test = rows.countP passes := by
  induction rows generalizing selected with
  | nil =>
      cases done
      rfl
  | cons row rest induction =>
      rw [List.forall_mem_cons] at matched unmatched
      obtain ⟨isLeft, done⟩ | ⟨matching, counted, others, counts, goesOn, rfl⟩ :=
        selectRows_cons_eq_ok.mp done
      · rw [List.countP_cons, unmatched.1 isLeft, induction matched.2 unmatched.2 done]
        rfl
      · rw [List.countP_cons, List.countP_cons, matched.1 matching counted counts,
          induction matched.2 unmatched.2 goesOn]

/-- A result shows what a row holds in a column that no count is named like. -/
theorem get_result {row counted : Record} (whole : spec.columns = none)
    (shows : contents.ShowsField spec.resource field) (uncounted : field ∉ spec.aggregateAliases)
    (inTable : row ∈ (contents.table spec.resource.name).rows)
    (counts : withCounts registry contents spec row = .ok counted) :
    (counted.project (resultNames spec)).get field = row.get field := by
  have kept : counted.get field = row.get field := by
    cases get_withCounts counts with
    | inl isCount => cases uncounted isCount.1
    | inr kept => exact kept.2
  by_cases shown : field ∈ resultNames spec
  · rw [Record.get_project shown, kept]
  · have noColumn : field ∉ spec.resource.columns := by
      intro isColumn
      refine shown (mem_distinctNames.mpr (List.mem_append_left _ ?_))
      rw [QuerySpec.selectedColumns, whole]
      exact isColumn
    rw [Record.get_project_other shown, shows noColumn row inTable]

theorem rowMatches_relatedSpec (given : .null ∉ values) (unfiltered : request.filters = none)
    (row : Record) :
    rowMatches (target.relatedSpec (Store.leafIn field values) request below) row =
      .ok (!target.isTrashed row && (row.get field).isIn values) := by
  have scope : inScope (target.relatedSpec (Store.leafIn field values) request below) row =
      !target.isTrashed row := by
    unfold inScope Resource.isTrashed
    change (if target.softDeletes then !target.isTrashed row else true) = _
    unfold Resource.isTrashed
    cases target.softDeletes <;> rfl
  rw [rowMatches_related (Store.evaluate_leafIn given row), scope, unfiltered]
  cases target.isTrashed row <;> cases (row.get field).isIn values <;> rfl

/-- Number of rows of a resource that hold a joining value and are not trashed; null joins none. -/
def liveCount (contents : Contents) (target : Resource) (field : String) (value : Value) : Nat :=
  if value.isNull then 0
  else (contents.table target.name).rows.countP fun row =>
    (row.get field).same value && !target.isTrashed row

/-- Of the rows that are fetched for some joining values, as many hold a certain one as there are
such rows in the table that are not trashed. -/
theorem countP_fetchRelated {value : Value} (given : .null ∉ values) (member : value ∈ values)
    (rowsJoin : ∀ row ∈ (contents.table target.name).rows, (row.get field).isJoining = true)
    (shows : contents.ShowsField target field)
    (uncounted : field ∉ (sortAggregates target request).map AggregateRequest.alias)
    (unfiltered : request.filters = none) {rows : List Record}
    (fetched : contents.fetchRows registry
      (target.relatedSpec (Store.leafIn field values) request below) none none = .ok rows) :
    rows.countP (fun row => (row.get field).coincides value) =
      contents.liveCount target field value := by
  have matching : ∀ row, rowMatches
      (target.relatedSpec (Store.leafIn field values) request below) row =
        .ok (!target.isTrashed row && (row.get field).isIn values) :=
    rowMatches_relatedSpec given unfiltered
  obtain ⟨selected, byKey, sorted, selection, _, keyed, sorting, rfl⟩ := fetchRows_eq_ok.mp fetched
  have isGiven : value.isNull = false :=
    Value.isNull_eq_false.mpr fun isNull => given (isNull ▸ member)
  rw [liveCount, isGiven, if_neg Bool.false_ne_true, window_none, List.countP_map,
    (Record.sortByAll_perm sorting).countP_eq, (Record.sortBy_perm keyed).countP_eq]
  refine countP_selectRows ?_ ?_ selection
  · intro row inTable matched counted counts
    rw [matching, Except.ok.injEq, Bool.and_eq_true] at matched
    rw [Function.comp_apply, get_result rfl shows uncounted inTable counts,
      Value.coincides_eq_same (rowsJoin row inTable), matched.1, Bool.and_true]
  · intro row inTable unmatched
    rw [matching, Except.ok.injEq, Bool.and_eq_false_iff] at unmatched
    cases unmatched with
    | inl trashed => rw [trashed, Bool.and_false]
    | inr absent =>
        have differs : ¬ (row.get field).coincides value = true :=
          List.any_eq_false.mp absent value member
        rw [Value.coincides_eq_same (rowsJoin row inTable), Bool.not_eq_true] at differs
        rw [differs, Bool.false_and]

/-- A count that is asked for stands under its alias. -/
theorem get_alias {aggregate : AggregateRequest} {row counted : Record}
    (member : aggregate ∈ spec.aggregates)
    (counts : withCounts registry contents spec row = .ok counted) :
    ∃ count, relatedCount registry contents spec.resource aggregate.relation row = .ok count ∧
      counted.get aggregate.alias = .int count := by
  have each : ∀ other ∈ spec.aggregates, ∃ count,
      relatedCount registry contents spec.resource other.relation row = .ok count := by
    intro other isOther
    obtain ⟨_, _, done⟩ :=
      (foldlM_eq_ok (fun _ => True) trivial (fun _ _ _ _ _ _ => trivial) counts).2 other isOther
    obtain ⟨count, isCount, _⟩ := bind_eq_ok.mp done
    exact ⟨count, isCount⟩
  choose! number numbers using each
  obtain ⟨same, isSame, shown, _⟩ := Sql.withCounts_eq numbers
  obtain rfl : same = counted := Except.ok.inj (isSame.symm.trans counts)
  exact ⟨number aggregate, numbers aggregate member, shown aggregate member⟩

/-- A count is that of the rows that hold what a row holds in the column it is joined by. -/
theorem relatedCount_eq {owner : Resource} {relation : Relation} {name : String}
    (isRelation : owner.relation name = .ok relation)
    (isTarget : registry.resource relation.target = .ok target) (row : Record) :
    relatedCount registry contents owner name row =
      .ok (contents.liveCount target (relation.targetField owner target)
        (row.get (relation.ownerField owner target))) := by
  unfold relatedCount liveCount
  rw [isRelation]
  change (registry.resource relation.target >>= _) = _
  rw [isTarget]
  change (if (row.get (relation.ownerField owner target)).isNull then _ else _) = _
  cases (row.get (relation.ownerField owner target)).isNull <;> rfl

/-- A result that shows its joining value shows how many rows it is related to. -/
theorem get_count {relation : Relation} {name : String} {rows : List Record}
    (whole : spec.columns = none) (isRelation : spec.resource.relation name = .ok relation)
    (isTarget : registry.resource relation.target = .ok target)
    (counted : ⟨name⟩ ∈ spec.aggregates)
    (shows : contents.ShowsField spec.resource (relation.ownerField spec.resource target))
    (uncounted : relation.ownerField spec.resource target ∉ spec.aggregateAliases)
    (fetched : contents.fetchRows registry spec none none = .ok rows) :
    ∀ result ∈ rows, result.get (AggregateRequest.mk name).alias =
      .int (contents.liveCount target (relation.targetField spec.resource target)
        (result.get (relation.ownerField spec.resource target))) := by
  intro result isResult
  obtain ⟨row, inTable, _, taken, counts, rfl⟩ := fetchRows_selects fetched result isResult
  have isShown : (AggregateRequest.mk name).alias ∈ resultNames spec :=
    mem_distinctNames.mpr (List.mem_append_right _ (List.mem_map_of_mem counted))
  obtain ⟨count, isCount, held⟩ := get_alias counted counts
  rw [relatedCount_eq isRelation isTarget] at isCount
  rw [get_result whole shows uncounted inTable counts, Record.get_project isShown, held,
    Except.ok.inj isCount]

end Contents

/-! ## Relations -/

/-- A count tells what a relation leads to: how many entities are in a list, or whether there is a
single one. -/
def Related.HasCount (related : Related) (isMany : Bool) (count : Nat) : Prop :=
  if isMany then ∃ found, related = .many found ∧ found.length = count
  else (0 < count ↔ related ≠ .absent)

/-- The count of a relation that an entity shows agrees with what the relation leads to. -/
def Entity.CountsAgree (entity : Entity) (name : String) (relation : Relation) : Prop :=
  ∃ related, ∃ count : Nat, entity.relations.lookup relation.name = some related ∧
    entity.get (AggregateRequest.mk name).alias = .int count ∧
      related.HasCount relation.isMany count

theorem Relation.related_hasCount (relation : Relation) (found : List Entity) :
    (relation.related none found).HasCount relation.isMany found.length := by
  unfold Related.HasCount related
  cases relation.isMany with
  | true => exact ⟨found, rfl, rfl⟩
  | false => cases found <;> simp

/-- The columns that a relation is joined by are shown in the results of a query and of the one for
what the relation leads to, and no counts are named like them. -/
structure QuerySpec.ShowsJoining (spec : QuerySpec) (contents : Contents) (relation : Relation)
    (target : Resource) (request : RelationRequest) : Prop where
  ownerShown : contents.ShowsField spec.resource (relation.ownerField spec.resource target)
  ownerUncounted : relation.ownerField spec.resource target ∉ spec.aggregateAliases
  targetShown : contents.ShowsField target (relation.targetField spec.resource target)
  targetUncounted : relation.targetField spec.resource target ∉
    (sortAggregates target request).map AggregateRequest.alias

namespace Store

section Loading

variable {τ : Type} {state : Memory × τ} {registry : Registry} {owner target : Resource}
variable {getRelated : QuerySpec → Action (Memory × τ) (List Entity)}
variable {steps : List RelationStep} {step : RelationStep} {relation : Relation}
variable {entities loaded : List Entity}

/-- Loading relations attaches what is found to entities one by one, and leaves alone what stands
under other names. -/
theorem foldlM_loadRelation_keeps (quiet : ∀ spec, (getRelated spec).Ensures (· = ·) fun _ => True)
    (done : (steps.foldlM (loadRelation getRelated registry owner) entities).Yields state loaded) :
    ∃ change : Entity → Entity, loaded = entities.map change ∧
      ∀ entity, (change entity).attributes = entity.attributes ∧
        ∀ name, (∀ step ∈ steps, ∀ relation, owner.relation step.request.path = .ok relation →
          relation.name ≠ name) →
            (change entity).relations.lookup name = entity.relations.lookup name := by
  induction steps generalizing entities with
  | nil =>
      cases done
      exact ⟨id, (List.map_id _).symm, fun entity => ⟨rfl, fun _ _ => rfl⟩⟩
  | cons step rest induction =>
      rw [List.foldlM_cons] at done
      obtain ⟨middle, first, later⟩ :=
        (loadRelation_ensures quiet registry owner entities step).yields_bind done
      obtain ⟨relation, isRelation, opened⟩ := Action.perform_compute_eq_ok.mp first
      obtain ⟨target, isTarget, _⟩ := Action.perform_compute_eq_ok.mp opened
      obtain ⟨related, _, rfl⟩ := (loadRelation_asks quiet isRelation isTarget).mp first
      obtain ⟨change, rfl, keeps⟩ := induction later
      refine ⟨_, List.map_map .., fun entity => ⟨?_, fun name others => ?_⟩⟩
      · rw [Function.comp_apply, (keeps _).1]
        exact Entity.attributes_attach ..
      · rw [List.forall_mem_cons] at others
        rw [Function.comp_apply, (keeps _).2 name others.2, attachTo, Entity.lookup_attach,
          if_neg (Ne.symm (others.1 relation isRelation))]

/-- Each entity has through a relation the matches among what is found for all of them. -/
theorem foldlM_loadRelation_attaches
    (quiet : ∀ spec, (getRelated spec).Ensures (· = ·) fun _ => True)
    (different : steps.Pairwise fun earlier later => ∀ first second,
      owner.relation earlier.request.path = .ok first →
        owner.relation later.request.path = .ok second → first.name ≠ second.name)
    (member : step ∈ steps) (isRelation : owner.relation step.request.path = .ok relation)
    (isTarget : registry.resource relation.target = .ok target)
    (joins : ∀ entity ∈ entities, (entity.get (relation.ownerField owner target)).isJoining = true)
    (done : (steps.foldlM (loadRelation getRelated registry owner) entities).Yields state loaded) :
    ∃ related,
      (if joiningValues (relation.ownerField owner target) entities = [] then related = []
        else (getRelated (target.relatedSpec (leafIn (relation.targetField owner target)
          (joiningValues (relation.ownerField owner target) entities)) step.request
            step.below)).Yields state related) ∧
      ∃ change : Entity → Entity, loaded = entities.map change ∧
        ∀ entity, (change entity).attributes = entity.attributes ∧
          (change entity).relations.lookup relation.name =
            some (relation.related step.request.window
              (matchesOf (relation.targetField owner target)
                (entity.get (relation.ownerField owner target)) related)) := by
  -- Steps before this one leave the joining values as they are, and steps after it its relation.
  obtain ⟨earlier, later, rfl⟩ := List.append_of_mem member
  have quietStep := loadRelation_ensures quiet registry owner
  rw [List.foldlM_append] at done
  obtain ⟨before, first, done⟩ := (Action.Ensures.foldlM
    (fun entities _ step => (quietStep entities step).weaken fun _ _ => trivial)
      earlier trivial).yields_bind done
  rw [List.foldlM_cons] at done
  obtain ⟨between, second, last⟩ := (quietStep before step).yields_bind done
  obtain ⟨changeFirst, rfl, keepsFirst⟩ := foldlM_loadRelation_keeps quiet first
  obtain ⟨changeLast, rfl, keepsLast⟩ := foldlM_loadRelation_keeps quiet last
  have kept : ∀ entity name, (changeFirst entity).get name = entity.get name := by
    intro entity name
    rw [Entity.get, (keepsFirst entity).1]
    rfl
  have beforeJoins : ∀ entity ∈ entities.map changeFirst,
      (entity.get (relation.ownerField owner target)).isJoining = true := by
    intro entity isEntity
    obtain ⟨bare, isBare, rfl⟩ := List.mem_map.mp isEntity
    rw [kept]
    exact joins bare isBare
  obtain ⟨related, asked, rfl⟩ :=
    (loadRelation_yields quiet isRelation isTarget beforeJoins).mp second
  rw [joiningValues_map fun entity => kept entity _] at asked
  refine ⟨related, asked, _, by rw [List.map_map, List.map_map], fun entity => ⟨?_, ?_⟩⟩
  · rw [Function.comp_apply, Function.comp_apply, (keepsLast _).1, attachTo,
      Entity.attributes_attach, (keepsFirst entity).1]
  · have others := (List.pairwise_cons.mp (List.pairwise_append.mp different).2.1).1
    rw [Function.comp_apply, Function.comp_apply, (keepsLast _).2 relation.name
      fun next isNext second isSecond => Ne.symm (others next isNext relation second isRelation
        isSecond), attachTo, Entity.lookup_attach, if_pos rfl, kept]

end Loading

section Counts

variable {τ : Type} {registry : Registry} {memory : Memory} {side : τ} {spec : QuerySpec}
variable {target : Resource} {relation : Relation} {name : String}

/-- As many entities match a joining value as there are such rows that are not trashed. -/
theorem length_matchesOf {field : String} {values : List Value} {value : Value} {depth : Nat}
    {request : RelationRequest} {below : List RelationRequest} {related : List Entity}
    (given : .null ∉ values) (member : value ∈ values)
    (rowsJoin : ∀ row ∈ (memory.contents.table target.name).rows,
      (row.get field).isJoining = true)
    (shows : memory.contents.ShowsField target field)
    (uncounted : field ∉ (sortAggregates target request).map AggregateRequest.alias)
    (unfiltered : request.filters = none)
    (asked : (getTo registry depth (target.relatedSpec (leafIn field values) request below)).Yields
      (memory, side) related) :
    (matchesOf field value related).length = memory.contents.liveCount target field value := by
  obtain ⟨rows, fetched, hydrated⟩ := getTo_yields.mp asked
  obtain ⟨_, _, loads⟩ := (hydrateTo_ensures registry depth _ rows).relatesOk hydrated
  have bare : ∀ entity : Entity, entity.bare.get field = entity.get field := by
    rintro ⟨⟩
    rfl
  have isGiven : value ≠ .null := fun isNull => given (isNull ▸ member)
  have shown : related.countP (fun entity => (entity.get field).coincides value) =
      rows.countP fun row => (row.get field).coincides value := by
    calc related.countP (fun entity => (entity.get field).coincides value)
      _ = (related.map Entity.bare).countP fun entity => (entity.get field).coincides value := by
          rw [List.countP_map]
          exact congrArg (List.countP · related) (funext fun entity => by
            rw [Function.comp_apply, bare])
      _ = rows.countP fun row => (row.get field).coincides value := by
          rw [loads, List.countP_map]
          rfl
  rw [matchesOf, Value.isNull_eq_false.mpr isGiven, if_neg Bool.false_ne_true,
    ← List.countP_eq_length_filter, shown,
    Contents.countP_fetchRelated given member rowsJoin shows uncounted unfiltered fetched]

/-- Every entity is a row that was fetched, and has through a step the matches among what one query
finds for it and others. -/
theorem get_attaches {step : RelationStep} {entities : List Entity}
    (named : registry.NamesRelations) (joins : memory.contents.Joins registry)
    (registered : spec.resource ∈ registry.resources)
    (member : step ∈ RelationStep.ofRequests spec.includes)
    (isRelation : spec.resource.relation step.request.path = .ok relation)
    (isTarget : registry.resource relation.target = .ok target)
    (found : (get registry spec).Yields (memory, side) entities) :
    ∃ rows depth related, memory.contents.fetchRows registry spec none none = .ok rows ∧
      ∀ entity ∈ entities, ∃ row ∈ rows, entity.attributes = row ∧
        entity.relations.lookup relation.name = some (relation.related step.request.window
          (matchesOf (relation.targetField spec.resource target)
            (row.get (relation.ownerField spec.resource target)) related)) ∧
        (row.get (relation.ownerField spec.resource target) ≠ .null → ∃ values,
          .null ∉ values ∧ row.get (relation.ownerField spec.resource target) ∈ values ∧
            (getTo registry depth (target.relatedSpec
              (leafIn (relation.targetField spec.resource target) values) step.request
                step.below)).Yields (memory, side) related) := by
  rw [← getTo_eq_get le_rfl] at found
  obtain ⟨rows, fetched, hydrated⟩ := getTo_yields.mp found
  refine ⟨rows, ?_⟩
  cases isDepth : includeDepth spec with
  | zero =>
      rw [ofRequests_eq_nil (Nat.le_of_eq isDepth)] at member
      cases member
  | succ depth =>
      rw [isDepth] at hydrated
      refine ⟨depth, ?_⟩
      by_cases none : rows = []
      · subst none
        cases hydrated
        exact ⟨[], fetched, List.forall_mem_nil _⟩
      · obtain ⟨_, loaded⟩ := (hydrateTo_yields none).mp hydrated
        have entitiesJoin : ∀ entity ∈ rows.map (entityOf spec.resource),
            (entity.get (relation.ownerField spec.resource target)).isJoining = true := by
          intro entity isEntity
          obtain ⟨row, isRow, rfl⟩ := List.mem_map.mp isEntity
          exact fetched_rowsJoin joins registered fetched row isRow _
            (Resource.mem_of_relation isRelation) target isTarget
        obtain ⟨related, asked, change, rfl, attaches⟩ := foldlM_loadRelation_attaches
          (getTo_quiet registry depth) (named.ofRequests_pairwise registered spec.includes) member
          isRelation isTarget entitiesJoin loaded
        refine ⟨related, fetched, fun entity isEntity => ?_⟩
        obtain ⟨bare, isBare, rfl⟩ := List.mem_map.mp isEntity
        obtain ⟨row, isRow, rfl⟩ := List.mem_map.mp isBare
        obtain ⟨sameAttributes, attached⟩ := attaches (entityOf spec.resource row)
        refine ⟨row, isRow, sameAttributes, attached, fun given => ?_⟩
        have isThere := (mem_joiningValues entitiesJoin).mpr ⟨given, _, isBare, rfl⟩
        rw [if_neg (List.ne_nil_of_mem isThere)] at asked
        exact ⟨_, fun isNull => (joiningValues_joins entitiesJoin .null isNull).2 rfl, isThere, asked⟩

/-- Whatever relation is counted and loaded, its count agrees with what it leads to: trashed rows
are left out of both, and rows without a joining value have none.  The joining columns hold null,
whole numbers and texts, they are shown as they are, and no two relations share a name. -/
theorem counts_agree {entities : List Entity} {after : Memory × τ}
    (named : registry.NamesRelations) (joins : memory.contents.Joins registry)
    (registered : spec.resource ∈ registry.resources) (whole : spec.columns = none)
    (isRelation : spec.resource.relation name = .ok relation)
    (isTarget : registry.resource relation.target = .ok target)
    (counted : ⟨name⟩ ∈ spec.aggregates)
    (asked : ∃ request ∈ spec.includes, RelationStep.head request.path = name)
    (ends : ∀ request ∈ spec.includes, RelationStep.head request.path = name →
      ¬ request.EndsInDot)
    (plain : ∀ request ∈ spec.includes, request.path = name →
      request.filters = none ∧ request.window = none)
    (shows : spec.ShowsJoining memory.contents relation target
      (RelationStep.directRequest name spec.includes))
    (done : (get registry spec).perform (memory, side) = (.ok entities, after)) :
    ∀ entity ∈ entities, entity.CountsAgree name relation := by
  obtain ⟨isPath, unfiltered, unwindowed⟩ :
      (RelationStep.directRequest name spec.includes).path = name ∧
        (RelationStep.directRequest name spec.includes).filters = none ∧
          (RelationStep.directRequest name spec.includes).window = none := by
    rcases RelationStep.directRequest_cases ends with isPlain | ⟨isRequest, isName, _⟩
    · rw [isPlain]
      exact ⟨rfl, rfl, rfl⟩
    · exact ⟨isName, plain _ isRequest isName⟩
  have member : ⟨name, RelationStep.directRequest name spec.includes,
      RelationStep.belowRequests name spec.includes⟩ ∈ RelationStep.ofRequests spec.includes := by
    obtain ⟨request, isRequest, rfl⟩ := asked
    exact List.mem_map.mpr ⟨_, mem_distinctNames.mpr (List.mem_map_of_mem isRequest), rfl⟩
  obtain ⟨rfl, _⟩ := get_eq_ok done
  obtain ⟨rows, depth, related, fetched, attaches⟩ := get_attaches named joins registered member
    (isPath.symm ▸ isRelation) isTarget done
  intro entity isEntity
  obtain ⟨row, isRow, sameAttributes, attached, isAsked⟩ := attaches entity isEntity
  refine ⟨_, _, unwindowed ▸ attached, ?_, relation.related_hasCount _⟩
  rw [Entity.get, sameAttributes, Contents.get_count whole isRelation isTarget counted
    shows.ownerShown shows.ownerUncounted fetched row isRow]
  by_cases isNull : row.get (relation.ownerField spec.resource target) = .null
  · rw [isNull, matchesOf_null]
    rfl
  · obtain ⟨values, noNull, isThere, yields⟩ := isAsked isNull
    rw [length_matchesOf noNull isThere
      (joins spec.resource registered _ (Resource.mem_of_relation isRelation) target isTarget).2
      shows.targetShown shows.targetUncounted unfiltered yields]

end Counts

/-- The query for all nodes, with their parents and children and how many these are. -/
def countedRelatives : QuerySpec where
  resource := Samples.Library.nodes
  includes := [{ path := "children", sort := [⟨"rank", .descending⟩] }, { path := "parent" }]
  aggregates := [⟨"children"⟩, ⟨"parent"⟩]

/-- A node that is its own parent has one child and one parent. -/
theorem counts_agree_loop :
    let children := (Samples.hasMany "children" "nodes" "parent_id").2
    let node := treeEntity 5 (.int 5) .null []
    let shown : Entity := .mk "nodes" (.int 5) (treeRow 5 (.int 5) .null ++
      [("children_count", .int 1), ("parent_count", .int 1)])
        [("children", .many [node]), ("parent", .single node)] false
    nodeRegistry.NamesRelations ∧ loopNode.contents.Joins nodeRegistry ∧
      countedRelatives.ShowsJoining loopNode.contents children Samples.Library.nodes
        (RelationStep.directRequest "children" countedRelatives.includes) ∧
      (get nodeRegistry countedRelatives).perform (loopNode, ()) = (.ok [shown], (loopNode, ())) ∧
        shown.CountsAgree "children" children := by
  intro children node shown
  have named : nodeRegistry.NamesRelations := by decide +kernel
  have joins : loopNode.contents.Joins nodeRegistry := by decide +kernel
  have shows : countedRelatives.ShowsJoining loopNode.contents children Samples.Library.nodes
      (RelationStep.directRequest "children" countedRelatives.includes) :=
    ⟨fun noColumn => absurd (by decide +kernel) noColumn, by decide +kernel,
      fun noColumn => absurd (by decide +kernel) noColumn, by decide +kernel⟩
  have done : (get nodeRegistry countedRelatives).perform (loopNode, ()) =
      (.ok [shown], (loopNode, ())) := by
    with_unfolding_all rfl
  have agree := counts_agree named joins List.mem_cons_self rfl rfl rfl List.mem_cons_self
    ⟨_, List.mem_cons_self, by decide +kernel⟩ (by decide +kernel) (by decide +kernel) shows done
  exact ⟨named, joins, shows, done, agree shown List.mem_cons_self⟩

/-! ## Where counts disagree -/

/-- Some entity shows a count that does not agree with its relation, although the registry is
valid, the columns that relations join by hold joining values, and the relation is asked for without
filters, page or projection. -/
def Miscounts (registry : Registry) (memory : Memory) (spec : QuerySpec) (name : String) : Prop :=
  registry.validate.isOk = true ∧ memory.contents.Joins registry ∧
    spec.resource ∈ registry.resources ∧ spec.columns = none ∧ ⟨name⟩ ∈ spec.aggregates ∧
      (∃ request ∈ spec.includes, request.path = name ∧ request.filters = none ∧
        request.window = none) ∧
        ∃ relation entities, spec.resource.relation name = .ok relation ∧
          (get registry spec).Yields (memory, ()) entities ∧
            ∃ entity ∈ entities, ¬ entity.CountsAgree name relation

theorem not_countsAgree {entity : Entity} {name : String} {relation : Relation} {related : Related}
    {count : Nat} (attached : entity.relations.lookup relation.name = some related)
    (shown : entity.get (AggregateRequest.mk name).alias = .int count)
    (differs : ¬ related.HasCount relation.isMany count) : ¬ entity.CountsAgree name relation := by
  rintro ⟨other, number, isOther, isNumber, agrees⟩
  obtain rfl : related = other := Option.some.inj (attached.symm.trans isOther)
  obtain rfl : count = number := by
    have same := shown.symm.trans isNumber
    rwa [Value.int.injEq, Int.natCast_inj] at same
  exact differs agrees

theorem Related.not_hasCount_many {found : List Entity} {count : Nat}
    (differs : found.length ≠ count) : ¬ (Related.many found).HasCount true count := by
  rintro ⟨other, same, isCount⟩
  cases same
  exact differs isCount

/-- Nodes whose children refer to them by nicknames, which are no column. -/
def nickedOwners : Resource := { Samples.Library.nodes with
  relations := [Samples.belongsTo "parent" "nodes" "parent_id",
    Samples.hasMany "children" "nodes" "parent_id" (some "nick")] }

/-- The count sees a nickname, but the result that relations are loaded for does not show it. -/
theorem nickedOwners_miscounts : Miscounts ⟨[nickedOwners]⟩ nickedLoop
    { resource := nickedOwners, includes := [{ path := "children" }]
      aggregates := [⟨"children"⟩] } "children" := by
  refine ⟨by decide +kernel, by decide +kernel, List.mem_cons_self, rfl, List.mem_cons_self,
    ⟨_, List.mem_cons_self, rfl, rfl, rfl⟩, _,
    [.mk "nodes" (.int 5) (treeRow 5 (.int 7) .null ++ [("children_count", .int 1)])
      [("children", .many [])] false], rfl, ?_, _, List.mem_cons_self, ?_⟩
  · with_unfolding_all rfl
  · exact not_countsAgree rfl rfl (Related.not_hasCount_many Nat.zero_ne_one)

/-- Parts that are numbered by a column with the name of a count. -/
def numberedParts : Resource := { parts with
  relations := [Samples.hasMany "parts" "parts" "id" (some "parts_count")] }

/-- A count takes the place of the value that it was taken for. -/
theorem numberedParts_miscounts : Miscounts ⟨[numberedParts]⟩ partLoop
    { resource := numberedParts, includes := [{ path := "parts" }]
      aggregates := [⟨"parts"⟩] } "parts" := by
  refine ⟨by decide +kernel, by decide +kernel, List.mem_cons_self, rfl, List.mem_cons_self,
    ⟨_, List.mem_cons_self, rfl, rfl, rfl⟩, _,
    [.mk "parts" (.int 5) (partRow 5 1) [("parts", .many [])] false], rfl, ?_, _,
    List.mem_cons_self, ?_⟩
  · with_unfolding_all rfl
  · exact not_countsAgree rfl rfl (Related.not_hasCount_many Nat.zero_ne_one)

/-- The count finds a parent by its nickname, but the result of its query does not show it. -/
theorem nickedParents_miscounts : Miscounts ⟨[nickedNodes]⟩ nickedLoop
    { nickedParents with aggregates := [⟨"parent"⟩] } "parent" := by
  refine ⟨by decide +kernel, by decide +kernel, List.mem_cons_self, rfl, List.mem_cons_self,
    ⟨_, List.mem_cons_self, rfl, rfl, rfl⟩, _,
    [.mk "nodes" (.int 5) (treeRow 5 (.int 7) .null ++ [("parent_count", .int 1)])
      [("parent", .absent)] false], rfl, ?_, _, List.mem_cons_self, ?_⟩
  · with_unfolding_all rfl
  · exact not_countsAgree rfl rfl fun agrees => agrees.mp Nat.one_pos rfl

/-- A count that related rows are sorted by takes the place of the value that they are joined by. -/
theorem wholesByCount_miscounts : Miscounts ⟨[parts]⟩ partLoop
    { wholesByCount with aggregates := [⟨"parts"⟩] } "parts" := by
  refine ⟨by decide +kernel, by decide +kernel, List.mem_cons_self, rfl, List.mem_cons_self,
    ⟨_, List.mem_cons_self, rfl, rfl, rfl⟩, _,
    [.mk "parts" (.int 5) (partRow 5 1) [("parts", .many [])] false], rfl, ?_, _,
    List.mem_cons_self, ?_⟩
  · with_unfolding_all rfl
  · exact not_countsAgree rfl rfl (Related.not_hasCount_many Nat.zero_ne_one)

/-- A node without a parent shows the list of its children in the place of the parent. -/
theorem allKin_miscounts : Miscounts ⟨[kinNodes]⟩ nickedLoop
    { allKin with aggregates := [⟨"parent"⟩] } "parent" := by
  refine ⟨by decide +kernel, by decide +kernel, List.mem_cons_self, rfl, List.mem_cons_self,
    ⟨_, List.mem_cons_self, rfl, rfl, rfl⟩, _,
    [.mk "nodes" (.int 5) (treeRow 5 (.int 7) .null ++ [("parent_count", .int 0)])
      [("kin", .many [])] false], rfl, ?_, _, List.mem_cons_self, ?_⟩
  · with_unfolding_all rfl
  · refine not_countsAgree rfl rfl fun agrees => Nat.lt_irrefl 0 (agrees.mpr ?_)
    intro isAbsent
    cases isAbsent

/-- Counts and relations may disagree where a joining column is no column of its table or a count
has its name, on either side of the relation, and where two relations share a name. -/
theorem counts_disagree :
    (Registry.NamesRelations ⟨[nickedOwners]⟩ ∧ Miscounts ⟨[nickedOwners]⟩ nickedLoop
      { resource := nickedOwners, includes := [{ path := "children" }]
        aggregates := [⟨"children"⟩] } "children") ∧
    (Registry.NamesRelations ⟨[numberedParts]⟩ ∧ Miscounts ⟨[numberedParts]⟩ partLoop
      { resource := numberedParts, includes := [{ path := "parts" }]
        aggregates := [⟨"parts"⟩] } "parts") ∧
    (Registry.NamesRelations ⟨[nickedNodes]⟩ ∧ Miscounts ⟨[nickedNodes]⟩ nickedLoop
      { nickedParents with aggregates := [⟨"parent"⟩] } "parent") ∧
    (Registry.NamesRelations ⟨[parts]⟩ ∧ Miscounts ⟨[parts]⟩ partLoop
      { wholesByCount with aggregates := [⟨"parts"⟩] } "parts") ∧
    Miscounts ⟨[kinNodes]⟩ nickedLoop { allKin with aggregates := [⟨"parent"⟩] } "parent" :=
  ⟨⟨by decide +kernel, nickedOwners_miscounts⟩, ⟨by decide +kernel, numberedParts_miscounts⟩,
    ⟨by decide +kernel, nickedParents_miscounts⟩, ⟨by decide +kernel, wholesByCount_miscounts⟩,
    allKin_miscounts⟩

end Store

end ResourceServer
