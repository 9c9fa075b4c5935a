import ResourceServer.Proofs.Store.Loading

/-!
# Loading level by level

What is loaded through a relation is loaded in the same way in its turn.  That entities get
what they would get alone is carried from one level to the one above it, by induction on the
depth up to which relations are loaded.
-/

namespace ResourceServer

namespace Store

/-- The entities that match a specification, their relations loaded up to a depth. -/
def getTo {σ : Type} [Store σ] (registry : Registry) (depth : Nat) (spec : QuerySpec) :
    Action σ (List Entity) :=
  fetchRows registry spec none none >>= hydrateTo registry depth spec

theorem getTo_eq_get {σ : Type} [Store σ] {registry : Registry} {spec : QuerySpec} {depth : Nat}
    (enough : includeDepth spec ≤ depth) :
    (getTo registry depth spec : Action σ _) = get registry spec := by
  unfold getTo get
  congr 1
  funext rows
  exact hydrateTo_eq_hydrate enough rows

theorem getTo_quiet {τ : Type} (registry : Registry) (depth : Nat) (spec : QuerySpec) :
    (getTo registry depth spec : Action (Memory × τ) _).Ensures (· = ·) fun _ => True :=
  .bind (Memory.fetchRows_ensures registry spec none none) fun rows _ =>
    (hydrateTo_ensures registry depth spec rows).weaken fun _ _ => trivial

theorem getTo_yields {τ : Type} {registry : Registry} {depth : Nat} {spec : QuerySpec}
    {memory : Memory} {side : τ} {entities : List Entity} :
    (getTo registry depth spec).Yields (memory, side) entities ↔
      ∃ rows, memory.contents.fetchRows registry spec none none = .ok rows ∧
        (hydrateTo registry depth spec rows).Yields (memory, side) entities := by
  constructor
  · intro done
    obtain ⟨rows, fetched, hydrated⟩ := (Memory.fetchRows_ensures _ _ _ _).yields_bind done
    exact ⟨rows, Memory.yields_fetchRows.mp fetched, hydrated⟩
  · rintro ⟨rows, fetched, hydrated⟩
    exact .bind (Memory.yields_fetchRows.mpr fetched) hydrated

section Levels

variable {τ : Type} {registry : Registry} {memory : Memory} {side : τ}

/-- The rows hold joining values in the columns that relations of their resource join by. -/
def RowsJoin (registry : Registry) (owner : Resource) (rows : List Record) : Prop :=
  ∀ row ∈ rows, ∀ entry ∈ owner.relations, ∀ target,
    registry.resource entry.2.target = .ok target →
      (row.get (entry.2.ownerField owner target)).isJoining = true

theorem fetched_rowsJoin {contents : Contents} {spec : QuerySpec} {rows : List Record}
    {offset limit : Option Int}
    (joins : contents.Joins registry) (registered : spec.resource ∈ registry.resources)
    (fetched : contents.fetchRows registry spec offset limit = .ok rows) :
    RowsJoin registry spec.resource rows := by
  intro result member entry isEntry target isTarget
  obtain ⟨row, inTable, _, counted, counts, rfl⟩ := Contents.fetchRows_selects fetched result member
  by_cases shown : entry.2.ownerField spec.resource target ∈ Contents.resultNames spec
  · rw [Record.get_project shown]
    cases Contents.get_withCounts counts with
    | inl isCount =>
        obtain ⟨_, count, held⟩ := isCount
        rw [held]
        rfl
    | inr kept =>
        rw [kept.2]
        exact (joins spec.resource registered entry isEntry target isTarget).1 row inTable
  · rw [Record.get_project_other shown]
    rfl

theorem hydrateTo_congr {σ : Type} [Store σ] {depth : Nat} {spec other : QuerySpec}
    (sameResource : other.resource = spec.resource) (sameIncludes : other.includes = spec.includes)
    (rows : List Record) :
    (hydrateTo registry depth other rows : Action σ _) = hydrateTo registry depth spec rows := by
  cases depth with
  | zero => rw [hydrateTo, hydrateTo, sameResource]
  | succ depth => rw [hydrateTo, hydrateTo, sameResource, sameIncludes]

/-- What is loaded below related rows does not depend on the values that they are related to. -/
theorem hydrateTo_relatedSpec {σ : Type} [Store σ] {depth : Nat} {target : Resource}
    (leaf narrow : Filter.Leaf) (request : RelationRequest) (below : List RelationRequest)
    (rows : List Record) :
    (hydrateTo registry depth (target.relatedSpec narrow request below) rows : Action σ _) =
      hydrateTo registry depth (target.relatedSpec leaf request below) rows := by
  apply hydrateTo_congr
  · rfl
  · rfl

/-- Loading up to a depth is a map over rows: each entity gets the relations that it would get
alone, and a part of the rows is loaded like the whole. -/
def LoadsEach (registry : Registry) (state : Memory × τ) (depth : Nat) (spec : QuerySpec) : Prop :=
  ∀ rows entities, RowsJoin registry spec.resource rows →
    (hydrateTo registry depth spec rows).Yields state entities →
      ∃ load : Record → Entity, (∀ row, (load row).attributes = row) ∧ entities = rows.map load ∧
        (∀ row ∈ rows, ∀ step ∈ RelationStep.ofRequests spec.includes, ∀ below,
          depth = below + 1 →
            LoadedThrough (getTo registry below) registry state spec.resource (load row) step) ∧
        ∀ part ⊆ rows, (hydrateTo registry depth spec part).Yields state (part.map load)

theorem getTo_picks {depth : Nat} {owner target : Resource} {relation : Relation}
    {step : RelationStep} {path : String} (joins : memory.contents.Joins registry)
    (registered : owner ∈ registry.resources) (isRelation : owner.relation path = .ok relation)
    (isTarget : registry.resource relation.target = .ok target)
    (separable : step.Separable memory.contents target (relation.targetField owner target))
    (loadsEach : ∀ leaf, LoadsEach registry (memory, side) depth
      (target.relatedSpec leaf step.request step.below)) :
    Picks (getTo registry depth) (memory, side) target (relation.targetField owner target)
      step := by
  intro leaf narrow values narrowed related leafJoins narrowJoins included found
  have isEntry := Resource.mem_of_relation isRelation
  obtain ⟨rows, fetched, hydrated⟩ := getTo_yields.mp found
  have rowsJoin : RowsJoin registry target rows :=
    fetched_rowsJoin joins (Registry.mem_of_resource isTarget) fetched
  obtain ⟨load, sameAttributes, rfl, _, parts⟩ := loadsEach leaf rows related rowsJoin hydrated
  have narrowFetched := Contents.fetchRelated_narrow leafJoins narrowJoins included
    (joins owner registered _ isEntry target isTarget).2 separable.shows
    separable.uncounted separable.orderly fetched
  have picked : ((rows.map load).filter fun entity =>
      (entity.get (relation.targetField owner target)).isIn narrowed) =
        (rows.filter fun row =>
          (row.get (relation.targetField owner target)).isIn narrowed).map load := by
    rw [List.filter_map]
    congr 1
    refine List.filter_congr fun row _ => ?_
    rw [Function.comp_apply, Entity.get, sameAttributes]
  rw [picked]
  refine getTo_yields.mpr ⟨_, narrowFetched, ?_⟩
  rw [hydrateTo_relatedSpec leaf narrow]
  exact parts _ (List.filter_subset_self rows)

theorem hydrateTo_yields {state : Memory × τ} {depth : Nat} {spec : QuerySpec}
    {rows : List Record} {entities : List Entity} (some : rows ≠ []) :
    (hydrateTo registry (depth + 1) spec rows).Yields state entities ↔
      (∀ row ∈ rows, row.has spec.resource.keyName) ∧
        ((RelationStep.ofRequests spec.includes).foldlM
          (loadRelation (getTo registry depth) registry spec.resource)
            (rows.map (entityOf spec.resource))).Yields state entities := by
  rw [hydrateTo, Action.Yields, Action.perform_compute_eq_ok]
  have notEmpty : (rows.map (entityOf spec.resource)).isEmpty = false := by
    simpa using some
  constructor
  · rintro ⟨bare, isBare, done⟩
    obtain ⟨complete, rfl⟩ := entitiesOf_eq_ok.mp isBare
    rw [notEmpty] at done
    exact ⟨complete, done⟩
  · rintro ⟨complete, done⟩
    refine ⟨_, entitiesOf_eq_ok.mpr ⟨complete, rfl⟩, ?_⟩
    rw [notEmpty]
    exact done

theorem loadsEach_zero {state : Memory × τ} {spec : QuerySpec} :
    LoadsEach registry state 0 spec := by
  intro rows entities _ done
  rw [hydrateTo] at done
  obtain ⟨complete, rfl⟩ := entitiesOf_eq_ok.mp (Action.yields_ofExcept.mp done)
  refine ⟨entityOf spec.resource, fun _ => rfl, rfl, ?_, ?_⟩
  · intro row _ step _ below isDepth
    cases isDepth
  · intro part included
    rw [hydrateTo]
    refine Action.yields_ofExcept.mpr (entitiesOf_eq_ok.mpr ⟨?_, rfl⟩)
    exact fun row member => complete row (included member)

theorem loadsEach_succ {state : Memory × τ} {depth : Nat} {spec : QuerySpec}
    (named : registry.NamesRelations) (registered : spec.resource ∈ registry.resources)
    (picks : OfSteps registry spec.resource (RelationStep.ofRequests spec.includes)
      fun step relation target => Picks (getTo registry depth) state target
        (relation.targetField spec.resource target) step) :
    LoadsEach registry state (depth + 1) spec := by
  intro rows entities rowsJoin done
  by_cases none : rows = []
  · subst none
    cases done
    refine ⟨entityOf spec.resource, fun _ => rfl, rfl, List.forall_mem_nil _, ?_⟩
    intro part included
    rw [List.eq_nil_of_subset_nil included]
    rfl
  · obtain ⟨complete, done⟩ := (hydrateTo_yields none).mp done
    have entitiesJoin : OfSteps registry spec.resource (RelationStep.ofRequests spec.includes)
        fun _ relation target => ∀ entity ∈ rows.map (entityOf spec.resource),
          (entity.get (relation.ownerField spec.resource target)).isJoining = true := by
      intro step _ relation target isRelation isTarget entity isEntity
      obtain ⟨row, isRow, rfl⟩ := List.mem_map.mp isEntity
      exact rowsJoin row isRow _ (Resource.mem_of_relation isRelation) target isTarget
    obtain ⟨change, rfl, changes⟩ := foldlM_loadRelation_each (getTo_quiet registry depth)
      (named.ofRequests_pairwise registered spec.includes) picks entitiesJoin done
    refine ⟨change ∘ entityOf spec.resource, ?_, List.map_map .., ?_, ?_⟩
    · exact fun row => changes.attributes (entityOf spec.resource row)
    · intro row isRow step member below isDepth
      cases isDepth
      exact changes.loaded _ (List.mem_map_of_mem isRow) step member
    · intro part included
      by_cases nothing : part = []
      · subst nothing
        rfl
      · refine (hydrateTo_yields nothing).mpr ⟨?_, ?_⟩
        · exact fun row member => complete row (included member)
        · rw [← List.map_map]
          exact changes.parts _ (List.map_subset _ included)

theorem loadsEach {depth : Nat} {spec : QuerySpec} (named : registry.NamesRelations)
    (joins : memory.contents.Joins registry) (registered : spec.resource ∈ registry.resources)
    (separates : registry.Separates memory.contents spec.resource spec.includes) :
    LoadsEach registry (memory, side) depth spec := by
  induction depth generalizing spec with
  | zero => exact loadsEach_zero
  | succ depth induction =>
      cases separates with
      | intro separable separatesBelow =>
          refine loadsEach_succ named registered ?_
          intro step member relation target isRelation isTarget
          refine getTo_picks joins registered isRelation isTarget
            (separable step member relation target isRelation isTarget) fun leaf => ?_
          exact induction (Registry.mem_of_resource isTarget)
            (separatesBelow step member relation target isRelation isTarget)

end Levels

end Store

end ResourceServer
