import ResourceServer.Proofs.Filter.Grammar
import ResourceServer.Proofs.Memory.Keys
import ResourceServer.Proofs.Store.Levels

/-!
# Loading a part

A part of the rows of a result is loaded like the whole.  The query for a part asks for the
rows related to fewer joining values, but those that match one of them are found in the same
order.  This takes no more than that sorting has an order to go by, at every level, and that
no count hides the values that rows are joined by.
-/

namespace ResourceServer

/-! ## Joining values -/

namespace Value

theorem isIn_append {value : Value} {values others : List Value} :
    value.isIn (values ++ others) = (value.isIn values || value.isIn others) :=
  List.any_append

theorem mem_of_mem_distinct {value : Value} {values : List Value}
    (member : value ∈ distinct values) : value ∈ values := by
  unfold distinct at member
  have general : ∀ kept : List Value,
      value ∈ values.foldl (fun kept item => if isIn item kept then kept else kept ++ [item]) kept →
        value ∈ kept ∨ value ∈ values := by
    clear member
    induction values with
    | nil => exact fun kept inKept => .inl inKept
    | cons item rest induction =>
        intro kept member
        rw [List.foldl_cons] at member
        rw [List.mem_cons]
        cases induction _ member with
        | inr inRest => exact .inr (.inr inRest)
        | inl inKept =>
            split at inKept
            · exact .inl inKept
            · rw [List.mem_append, List.mem_singleton] at inKept
              exact inKept.imp_right .inl
  exact (general [] member).resolve_left List.not_mem_nil

/-- A value is kept or coincides with one that is. -/
theorem mem_distinct_or_isIn {value : Value} {values : List Value} (member : value ∈ values) :
    value ∈ distinct values ∨ value.isIn (distinct values) = true := by
  unfold distinct
  have general : ∀ kept : List Value,
      (value ∈ kept ∨ value.isIn kept = true) ∨ value ∈ values →
        value ∈ values.foldl (fun kept item => if isIn item kept then kept else kept ++ [item]) kept ∨
          value.isIn (values.foldl
            (fun kept item => if isIn item kept then kept else kept ++ [item]) kept) = true := by
    clear member
    induction values with
    | nil => simp
    | cons item rest induction =>
        intro kept found
        rw [List.foldl_cons]
        refine induction _ ?_
        split
        · rename_i known
          obtain found | member := found
          · exact .inl found
          · obtain rfl | inRest := List.mem_cons.mp member
            · exact .inl (.inr known)
            · exact .inr inRest
        · rw [isIn_append, List.mem_append, List.mem_singleton, Bool.or_eq_true]
          obtain (inKept | isInKept) | member := found
          · exact .inl (.inl (.inl inKept))
          · exact .inl (.inr (.inl isInKept))
          · obtain isItem | inRest := List.mem_cons.mp member
            · exact .inl (.inl (.inr isItem))
            · exact .inr inRest
  exact general [] (.inr member)

theorem isKey_of_isScalar {value : Value} (scalar : Filter.isScalar value = true) :
    value.isKey = true := by
  cases value with
  | list items => cases scalar
  | object members => cases scalar
  | _ => rfl

theorem isScalar_of_coincides {value scalar : Value} (isScalar : Filter.isScalar scalar = true)
    (coincide : value.coincides scalar = true) : Filter.isScalar value = true := by
  cases value with
  | null =>
      rw [null_coincides.mp coincide] at isScalar
      cases isScalar
  | moment moment =>
      obtain ⟨instant, rfl, _⟩ := moment_coincides.mp coincide
      cases isScalar
  | list items =>
      obtain ⟨others, rfl, _⟩ := list_coincides.mp coincide
      cases isScalar
  | object members =>
      obtain ⟨others, rfl, _⟩ := object_coincides.mp coincide
      cases isScalar
  | _ => rfl

end Value

section JoiningValues

variable {field : String} {entities part : List Entity}

theorem mem_of_mem_joiningValues {value : Value} (member : value ∈ joiningValues field entities) :
    value ≠ .null ∧ ∃ entity ∈ entities, entity.get field = value := by
  have given := List.mem_filter.mp (Value.mem_of_mem_distinct member)
  rw [List.mem_map, Bool.not_eq_true', Value.isNull_eq_false, and_comm] at given
  exact given

theorem mem_joiningValues_or_isIn {entity : Entity} (isEntity : entity ∈ entities)
    (given : entity.get field ≠ .null) :
    entity.get field ∈ joiningValues field entities ∨
      (entity.get field).isIn (joiningValues field entities) = true := by
  refine Value.mem_distinct_or_isIn (List.mem_filter.mpr ⟨List.mem_map_of_mem isEntity, ?_⟩)
  rwa [Bool.not_eq_true', Value.isNull_eq_false]

theorem joiningValues_eq_nil (none : joiningValues field entities = []) :
    ∀ entity ∈ entities, entity.get field = .null := by
  intro entity isEntity
  by_contra given
  have kept := mem_joiningValues_or_isIn isEntity given
  rw [none] at kept
  cases kept with
  | inl member => cases member
  | inr found => cases found

/-- When the joining values of some entities are scalars, so are the values of all of them. -/
theorem isScalar_of_joiningValues
    (scalars : ∀ value ∈ joiningValues field entities, Filter.isScalar value = true) :
    ∀ entity ∈ entities, entity.get field ≠ .null → Filter.isScalar (entity.get field) = true := by
  intro entity isEntity given
  cases mem_joiningValues_or_isIn isEntity given with
  | inl member => exact scalars _ member
  | inr found =>
      obtain ⟨other, member, coincide⟩ := List.any_eq_true.mp found
      exact Value.isScalar_of_coincides (scalars other member) coincide

/-- The joining values find what coincides with the value of an entity. -/
theorem isIn_joiningValues
    (scalars : ∀ value ∈ joiningValues field entities, Filter.isScalar value = true)
    {value : Value} :
    value.isIn (joiningValues field entities) = true ↔
      ∃ entity ∈ entities, entity.get field ≠ .null ∧ value.coincides (entity.get field) = true := by
  constructor
  · intro found
    obtain ⟨other, member, coincide⟩ := List.any_eq_true.mp found
    obtain ⟨given, entity, isEntity, rfl⟩ := mem_of_mem_joiningValues member
    exact ⟨entity, isEntity, given, coincide⟩
  · rintro ⟨entity, isEntity, given, coincide⟩
    have entityKey := Value.isKey_of_isScalar (isScalar_of_joiningValues scalars entity isEntity given)
    cases mem_joiningValues_or_isIn isEntity given with
    | inl member => exact List.any_eq_true.mpr ⟨_, member, coincide⟩
    | inr found =>
        obtain ⟨other, member, alike⟩ := List.any_eq_true.mp found
        exact List.any_eq_true.mpr ⟨other, member, Value.coincides_trans_of_isKey entityKey
          (Value.isKey_of_isScalar (scalars other member)) coincide alike⟩

theorem joiningValues_scalars_of_subset
    (scalars : ∀ value ∈ joiningValues field entities, Filter.isScalar value = true)
    (included : part ⊆ entities) :
    ∀ value ∈ joiningValues field part, Filter.isScalar value = true := by
  intro value member
  obtain ⟨given, entity, isEntity, rfl⟩ := mem_of_mem_joiningValues member
  exact isScalar_of_joiningValues scalars entity (included isEntity) given

/-- The joining values of a part find nothing that those of the whole do not. -/
theorem isIn_joiningValues_of_subset
    (scalars : ∀ value ∈ joiningValues field entities, Filter.isScalar value = true)
    (included : part ⊆ entities) {value : Value}
    (found : value.isIn (joiningValues field part) = true) :
    value.isIn (joiningValues field entities) = true := by
  obtain ⟨entity, isEntity, given, coincide⟩ :=
    (isIn_joiningValues (joiningValues_scalars_of_subset scalars included)).mp found
  exact (isIn_joiningValues scalars).mpr ⟨entity, included isEntity, given, coincide⟩

end JoiningValues

/-! ## Levels -/

/-- The rows that a step leads to are sorted by fields without NaN, and no count that they are
sorted by takes the name of the field that they are joined by. -/
structure RelationStep.Narrowable (contents : Contents) (target : Resource) (field : String)
    (step : RelationStep) : Prop where
  uncounted : field ∉ (sortAggregates target step.request).map AggregateRequest.alias
  orderly : ∀ row ∈ (contents.table target.name).rows, (row.get target.keyName).Orderly ∧
    ∀ directive ∈ step.request.sort, (row.get directive.field).Orderly

/-- All steps along the paths of some requests are narrowable. -/
inductive Registry.Narrows (registry : Registry) (contents : Contents) :
    Resource → List RelationRequest → Prop where
  | intro {owner : Resource} {requests : List RelationRequest}
      (steps : ∀ step ∈ RelationStep.ofRequests requests, ∀ relation target,
        owner.relation step.request.path = .ok relation →
          registry.resource relation.target = .ok target →
            step.Narrowable contents target (relation.targetField owner target))
      (below : ∀ step ∈ RelationStep.ofRequests requests, ∀ relation target,
        owner.relation step.request.path = .ok relation →
          registry.resource relation.target = .ok target →
            registry.Narrows contents target (mergeRequests step.below)) :
      registry.Narrows contents owner requests

theorem RelationStep.Separable.narrowable {contents : Contents} {target : Resource} {field : String}
    {step : RelationStep} (separable : step.Separable contents target field) :
    step.Narrowable contents target field :=
  ⟨separable.uncounted, separable.orderly⟩

/-- Where every entity can be loaded alone, every part of the entities can. -/
theorem Registry.Separates.narrows {registry : Registry} {contents : Contents} {owner : Resource}
    {requests : List RelationRequest} (separates : registry.Separates contents owner requests) :
    registry.Narrows contents owner requests := by
  induction separates with
  | intro steps _ below =>
      exact .intro
        (fun step member relation target isRelation isTarget =>
          (steps step member relation target isRelation isTarget).narrowable) below

namespace Store

variable {τ : Type} {registry : Registry} {memory : Memory} {side : τ} {state : Memory × τ}

/-- Loading maps the given items to entities with their attributes, and it maps each part of
them in the same way. -/
def LoadsParts {α : Type} (attributes : α → Record)
    (load : List α → Action (Memory × τ) (List Entity)) (state : Memory × τ) (items : List α)
    (loaded : List Entity) : Prop :=
  ∃ change : α → Entity, (∀ item, (change item).attributes = attributes item) ∧
    loaded = items.map change ∧ ∀ part ⊆ items, (load part).Yields state (part.map change)

theorem LoadsParts.bind {α : Type} {attributes : α → Record}
    {load : List α → Action (Memory × τ) (List Entity)}
    {next : List Entity → Action (Memory × τ) (List Entity)} {items : List α}
    {middle loaded : List Entity} (first : LoadsParts attributes load state items middle)
    (rest : LoadsParts Entity.attributes next state middle loaded) :
    LoadsParts attributes (fun items => load items >>= next) state items loaded := by
  obtain ⟨change, sameFirst, rfl, firstParts⟩ := first
  obtain ⟨later, sameLater, rfl, laterParts⟩ := rest
  refine ⟨later ∘ change, fun item => (sameLater _).trans (sameFirst item), List.map_map .., ?_⟩
  intro part included
  rw [← List.map_map]
  exact .bind (firstParts part included) (laterParts _ (List.map_subset _ included))

/-- Asking for the entities related to fewer values finds the same matches of those values. -/
def FindsMatches (getRelated : QuerySpec → Action (Memory × τ) (List Entity)) (state : Memory × τ)
    (target : Resource) (field : String) (step : RelationStep) : Prop :=
  ∀ (values narrowed : List Value) (related : List Entity),
    .null ∉ values → .null ∉ narrowed →
      (∀ value : Value, value.isIn narrowed = true → value.isIn values = true) →
        (getRelated (target.relatedSpec (leafIn field values) step.request step.below)).Yields state
            related →
          ∃ found, (getRelated (target.relatedSpec (leafIn field narrowed) step.request
              step.below)).Yields state found ∧
            ∀ value, (∀ other : Value, other.coincides value = true → other.isIn narrowed = true) →
              matchesOf field value found = matchesOf field value related

section Level

variable {getRelated : QuerySpec → Action (Memory × τ) (List Entity)}
variable {owner target : Resource} {relation : Relation} {step : RelationStep}
variable {entities loaded : List Entity}

theorem relatedQuery_iff {field : String} {values : List Value} {request : RelationRequest}
    {below : List RelationRequest} {query : QuerySpec} :
    relatedQuery target field values request below = .ok query ↔
      (∀ value ∈ values, Filter.isScalar value = true) ∧
        query = target.relatedSpec (leafIn field values) request below := by
  rw [relatedQuery_eq]
  constructor
  · intro isQuery
    cases made : Filter.Leaf.make field .isIn (.list values) with
    | error error =>
        rw [made] at isQuery
        cases isQuery
    | ok leaf =>
        rw [made] at isQuery
        cases isQuery
        obtain ⟨⟨items, isItems, scalars⟩, rfl⟩ := Filter.Leaf.make_eq_ok.mp made
        cases isItems
        exact ⟨scalars, rfl⟩
  · rintro ⟨scalars, rfl⟩
    have made : Filter.Leaf.make field .isIn (.list values) = .ok (leafIn field values) :=
      Filter.Leaf.make_eq_ok.mpr ⟨⟨values, rfl, scalars⟩, rfl⟩
    rw [made]
    rfl

theorem null_not_mem_of_scalars {values : List Value}
    (scalars : ∀ value ∈ values, Filter.isScalar value = true) : .null ∉ values := by
  intro isNull
  cases scalars _ isNull

/-- A relation is loaded for a part of the entities as for the whole. -/
theorem loadRelation_parts
    (quiet : ∀ spec, (getRelated spec).Ensures (· = ·) fun _ => True)
    (isRelation : owner.relation step.request.path = .ok relation)
    (isTarget : registry.resource relation.target = .ok target)
    (finds : FindsMatches getRelated state target (relation.targetField owner target) step)
    (done : (loadRelation getRelated registry owner entities step).Yields state loaded) :
    LoadsParts Entity.attributes (loadRelation getRelated registry owner · step) state entities
      loaded := by
  obtain ⟨related, asked, rfl⟩ := (loadRelation_asks quiet isRelation isTarget).mp done
  refine ⟨attachTo relation owner target step.request.window related,
    fun entity => Entity.attributes_attach .., rfl, ?_⟩
  intro part included
  refine (loadRelation_asks quiet isRelation isTarget).mpr ?_
  by_cases nothing : joiningValues (relation.ownerField owner target) part = []
  · refine ⟨[], by rw [if_pos nothing], ?_⟩
    refine List.map_congr_left fun entity isEntity => ?_
    rw [attachTo, attachTo, joiningValues_eq_nil nothing entity isEntity, matchesOf_null,
      matchesOf_null]
  · obtain ⟨value, isValue⟩ := List.exists_mem_of_ne_nil _ nothing
    obtain ⟨given, entity, isEntity, rfl⟩ := mem_of_mem_joiningValues isValue
    have something : joiningValues (relation.ownerField owner target) entities ≠ [] :=
      fun none => given (joiningValues_eq_nil none entity (included isEntity))
    rw [if_neg something] at asked
    obtain ⟨query, isQuery, yields⟩ := asked
    obtain ⟨scalars, rfl⟩ := relatedQuery_iff.mp isQuery
    have partScalars := joiningValues_scalars_of_subset scalars included
    obtain ⟨found, foundYields, sameMatches⟩ := finds _ _ related (null_not_mem_of_scalars scalars)
      (null_not_mem_of_scalars partScalars)
      (fun _ => isIn_joiningValues_of_subset scalars included) yields
    refine ⟨found, ?_, ?_⟩
    · rw [if_neg nothing]
      exact ⟨_, relatedQuery_iff.mpr ⟨partScalars, rfl⟩, foundYields⟩
    · refine List.map_congr_left fun entity isEntity => ?_
      by_cases isNull : entity.get (relation.ownerField owner target) = .null
      · rw [attachTo, attachTo, isNull, matchesOf_null, matchesOf_null]
      · rw [attachTo, attachTo, sameMatches _ fun other coincide =>
          (isIn_joiningValues partScalars).mpr ⟨entity, isEntity, isNull, coincide⟩]

/-- The relations of all steps are loaded for a part of the entities as for the whole. -/
theorem foldlM_loadRelation_parts {steps : List RelationStep}
    (quiet : ∀ spec, (getRelated spec).Ensures (· = ·) fun _ => True)
    (finds : OfSteps registry owner steps fun step relation target =>
      FindsMatches getRelated state target (relation.targetField owner target) step)
    (done : (steps.foldlM (loadRelation getRelated registry owner) entities).Yields state loaded) :
    LoadsParts Entity.attributes (steps.foldlM (loadRelation getRelated registry owner)) state
      entities loaded := by
  induction steps generalizing entities with
  | nil =>
      cases done
      refine ⟨id, fun _ => rfl, (List.map_id _).symm, fun part _ => ?_⟩
      rw [List.map_id]
      rfl
  | cons step rest induction =>
      rw [List.foldlM_cons] at done
      obtain ⟨middle, first, later⟩ :=
        (loadRelation_ensures quiet registry owner entities step).yields_bind done
      obtain ⟨relation, isRelation, opened⟩ := Action.perform_compute_eq_ok.mp first
      obtain ⟨target, isTarget, _⟩ := Action.perform_compute_eq_ok.mp opened
      exact (loadRelation_parts quiet isRelation isTarget
        (finds step List.mem_cons_self relation target isRelation isTarget) first).bind
        (induction (fun asked member => finds asked (List.mem_cons_of_mem step member)) later)

end Level

/-! ## All levels -/

/-- Rows may be left out that a value does not match once they are loaded. -/
theorem matchesOf_map_filter {field : String} {value : Value} {rows : List Record}
    {load : Record → Entity} {keep : Record → Bool}
    (keeps : value ≠ .null → ∀ row ∈ rows, ((load row).get field).coincides value = true →
      keep row = true) :
    matchesOf field value ((rows.filter keep).map load) = matchesOf field value (rows.map load) := by
  unfold matchesOf
  split
  · rfl
  · rename_i given
    rw [Value.isNull_iff] at given
    rw [List.filter_map, List.filter_map, List.filter_filter]
    refine congrArg (List.map load) (List.filter_congr fun row isRow => ?_)
    rw [Function.comp_apply, Bool.and_eq_left_iff_imp]
    exact keeps given row isRow

/-- At every level the rows of a query for fewer values are found among those of another one. -/
theorem getTo_findsMatches {depth : Nat} {target : Resource} {field : String} {step : RelationStep}
    (narrowable : step.Narrowable memory.contents target field)
    (loadsParts : ∀ leaf rows entities,
      (hydrateTo registry depth (target.relatedSpec leaf step.request step.below) rows).Yields
        (memory, side) entities →
          LoadsParts id (hydrateTo registry depth (target.relatedSpec leaf step.request step.below))
            (memory, side) rows entities) :
    FindsMatches (getTo registry depth) (memory, side) target field step := by
  intro values narrowed related valuesGiven narrowedGiven included done
  obtain ⟨rows, fetched, hydrated⟩ := getTo_yields.mp done
  obtain ⟨load, sameAttributes, rfl, parts⟩ := loadsParts _ rows related hydrated
  obtain ⟨sorted, _, rfl, narrowFetched⟩ := Contents.fetchRelated_keep
    (fun row _ => evaluate_leafIn valuesGiven row) (fun row _ => evaluate_leafIn narrowedGiven row)
    included narrowable.uncounted narrowable.orderly fetched
  have loaded := parts _ (List.map_subset _
    (List.filter_subset_self (p := fun row => (Record.get row field).isIn narrowed) sorted))
  rw [← hydrateTo_relatedSpec _ (leafIn field narrowed)] at loaded
  refine ⟨_, getTo_yields.mpr ⟨_, narrowFetched, loaded⟩, ?_⟩
  intro value matched
  rw [List.map_map, List.map_map]
  refine matchesOf_map_filter fun given row _ coincide => ?_
  rw [Function.comp_apply, Entity.get, sameAttributes, id] at coincide
  by_cases shown : field ∈ Contents.resultNames
      (target.relatedSpec (leafIn field values) step.request step.below)
  · rw [Record.get_project shown] at coincide
    exact matched _ coincide
  · -- A field that is not shown holds nothing, and nothing matches no joining value.
    rw [Record.get_project_other shown, Value.null_coincides] at coincide
    exact absurd coincide given

/-- A part of the rows is loaded like the whole, up to any depth. -/
theorem hydrateTo_parts {depth : Nat} {spec : QuerySpec} {rows : List Record}
    {entities : List Entity}
    (narrows : registry.Narrows memory.contents spec.resource spec.includes)
    (done : (hydrateTo registry depth spec rows).Yields (memory, side) entities) :
    LoadsParts id (hydrateTo registry depth spec) (memory, side) rows entities := by
  induction depth generalizing spec rows entities with
  | zero =>
      rw [hydrateTo] at done
      obtain ⟨complete, rfl⟩ := entitiesOf_eq_ok.mp (Action.yields_ofExcept.mp done)
      refine ⟨entityOf spec.resource, fun _ => rfl, rfl, fun part included => ?_⟩
      rw [hydrateTo]
      refine Action.yields_ofExcept.mpr (entitiesOf_eq_ok.mpr ⟨?_, rfl⟩)
      exact fun row member => complete row (included member)
  | succ depth induction =>
      by_cases nothing : rows = []
      · subst nothing
        cases done
        refine ⟨entityOf spec.resource, fun _ => rfl, rfl, fun part included => ?_⟩
        rw [List.eq_nil_of_subset_nil included]
        rfl
      · obtain ⟨complete, done⟩ := (hydrateTo_yields nothing).mp done
        have finds : OfSteps registry spec.resource (RelationStep.ofRequests spec.includes)
            fun step relation target => FindsMatches (getTo registry depth) (memory, side) target
              (relation.targetField spec.resource target) step := by
          cases narrows with
          | intro steps below =>
              intro step member relation target isRelation isTarget
              refine getTo_findsMatches (steps step member relation target isRelation isTarget) ?_
              intro leaf rows entities loaded
              exact induction (below step member relation target isRelation isTarget) loaded
        obtain ⟨change, sameAttributes, rfl, parts⟩ :=
          foldlM_loadRelation_parts (getTo_quiet registry depth) finds done
        refine ⟨change ∘ entityOf spec.resource, fun row => sameAttributes _, List.map_map .., ?_⟩
        intro part included
        by_cases none : part = []
        · subst none
          rfl
        · refine (hydrateTo_yields none).mpr ⟨fun row member => complete row (included member), ?_⟩
          rw [← List.map_map]
          exact parts _ (List.map_subset _ included)

end Store

end ResourceServer
