import ResourceServer.Proofs.Memory.Reading
import ResourceServer.Proofs.Store.Separation

/-!
# Loading one by one

One query serves all entities of a level at once, and yet each of them gets what it would get
alone.  Loading is a map over entities: what one of them is given does not depend on the
others, so a part of them is loaded like the whole.
-/

namespace ResourceServer

@[simp] theorem Entity.get_attach (entity : Entity) (name other : String) (related : Related) :
    (entity.attach name related).get other = entity.get other := by
  cases entity
  rfl

@[simp] theorem Entity.attributes_attach (entity : Entity) (name : String) (related : Related) :
    (entity.attach name related).attributes = entity.attributes := by
  cases entity
  rfl

theorem Entity.lookup_attach (entity : Entity) (name other : String) (related : Related) :
    (entity.attach name related).relations.lookup other =
      if other = name then some related else entity.relations.lookup other := by
  cases entity
  exact Entries.lookup_set _ name other related

namespace Store

/-- The entity with what a relation leads to, given the entities related to any owner. -/
def attachTo (relation : Relation) (owner target : Resource) (window : Option RelationWindow)
    (related : List Entity) (entity : Entity) : Entity :=
  entity.attach relation.name (relation.related window
    (matchesOf (relation.targetField owner target)
      (entity.get (relation.ownerField owner target)) related))

section Level

variable {τ : Type} {state : Memory × τ}
variable {getRelated : QuerySpec → Action (Memory × τ) (List Entity)}
variable {registry : Registry} {owner target : Resource} {relation : Relation}
variable {step : RelationStep} {entities loaded : List Entity}

/-- The leaf that holds of rows with one of the values in a field. -/
def leafIn (field : String) (values : List Value) : Filter.Leaf :=
  ⟨field, .isIn, .list values, .both⟩

theorem evaluate_leafIn {field : String} {values : List Value} (given : .null ∉ values)
    (row : Record) : (leafIn field values).evaluate row = .ok ((row.get field).isIn values) :=
  Filter.Leaf.evaluate_isIn given row

theorem mem_joiningValues {field : String}
    (joins : ∀ entity ∈ entities, (entity.get field).isJoining = true) {value : Value} :
    value ∈ joiningValues field entities ↔
      value ≠ .null ∧ ∃ entity ∈ entities, entity.get field = value := by
  unfold joiningValues
  rw [Value.mem_distinct]
  · rw [List.mem_filter, List.mem_map, Bool.not_eq_true', Value.isNull_eq_false, and_comm]
  · intro other member
    obtain ⟨entity, isEntity, rfl⟩ := List.mem_map.mp (List.mem_of_mem_filter member)
    exact joins entity isEntity

theorem joiningValues_joins {field : String}
    (joins : ∀ entity ∈ entities, (entity.get field).isJoining = true) :
    ∀ value ∈ joiningValues field entities, value.isJoining = true ∧ value ≠ .null := by
  intro value member
  obtain ⟨given, entity, isEntity, rfl⟩ := (mem_joiningValues joins).mp member
  exact ⟨joins entity isEntity, given⟩

theorem joiningValues_subset {field : String} {part : List Entity}
    (joins : ∀ entity ∈ entities, (entity.get field).isJoining = true) (included : part ⊆ entities) :
    joiningValues field part ⊆ joiningValues field entities := by
  intro value member
  obtain ⟨given, entity, isEntity, held⟩ :=
    (mem_joiningValues fun entity isEntity => joins entity (included isEntity)).mp member
  exact (mem_joiningValues joins).mpr ⟨given, entity, included isEntity, held⟩

theorem null_or_mem_joiningValues {field : String} {entity : Entity}
    (joins : ∀ entity ∈ entities, (entity.get field).isJoining = true)
    (isEntity : entity ∈ entities) :
    entity.get field = .null ∨ entity.get field ∈ joiningValues field entities := by
  by_cases isNull : entity.get field = .null
  · exact .inl isNull
  · exact .inr ((mem_joiningValues joins).mpr ⟨isNull, entity, isEntity, rfl⟩)

/-- A relation is loaded by one query for all joining values, or by none when there are none. -/
theorem loadRelation_asks
    (quiet : ∀ spec, (getRelated spec).Ensures (· = ·) fun _ => True)
    (isRelation : owner.relation step.request.path = .ok relation)
    (isTarget : registry.resource relation.target = .ok target) :
    (loadRelation getRelated registry owner entities step).Yields state loaded ↔
      ∃ related, (if joiningValues (relation.ownerField owner target) entities = [] then
          related = []
        else ∃ query, relatedQuery target (relation.targetField owner target)
            (joiningValues (relation.ownerField owner target) entities) step.request step.below =
              .ok query ∧ (getRelated query).Yields state related) ∧
        loaded = entities.map (attachTo relation owner target step.request.window related) := by
  unfold loadRelation
  rw [isRelation, Action.ofExcept_ok, pure_bind, isTarget, Action.ofExcept_ok, pure_bind]
  dsimp only
  cases joiningValues (relation.ownerField owner target) entities with
  | nil =>
      constructor
      · intro done
        cases done
        exact ⟨[], rfl, rfl⟩
      · rintro ⟨related, rfl, rfl⟩
        rfl
  | cons first rest =>
      simp only [List.isEmpty_cons, Bool.false_eq_true, if_false, List.cons_ne_nil]
      constructor
      · intro done
        obtain ⟨query, isQuery, done⟩ := Action.perform_compute_eq_ok.mp done
        obtain ⟨related, found, done⟩ := (quiet query).yields_bind done
        cases done
        exact ⟨related, ⟨query, isQuery, found⟩, rfl⟩
      · rintro ⟨related, ⟨query, isQuery, found⟩, rfl⟩
        exact Action.perform_compute_eq_ok.mpr ⟨query, isQuery, Action.Yields.bind found rfl⟩

theorem loadRelation_yields
    (quiet : ∀ spec, (getRelated spec).Ensures (· = ·) fun _ => True)
    (isRelation : owner.relation step.request.path = .ok relation)
    (isTarget : registry.resource relation.target = .ok target)
    (joins : ∀ entity ∈ entities,
      (entity.get (relation.ownerField owner target)).isJoining = true) :
    (loadRelation getRelated registry owner entities step).Yields state loaded ↔
      ∃ related, (if joiningValues (relation.ownerField owner target) entities = [] then
          related = []
        else (getRelated (target.relatedSpec (leafIn (relation.targetField owner target)
          (joiningValues (relation.ownerField owner target) entities)) step.request
            step.below)).Yields state related) ∧
        loaded = entities.map (attachTo relation owner target step.request.window related) := by
  rw [loadRelation_asks quiet isRelation isTarget, relatedQuery_eq,
    Filter.Leaf.make_isIn _ (joiningValues_joins joins)]
  simp only [Except.map, Except.ok.injEq, exists_eq_left']
  rfl

theorem matchesOf_null (field : String) (related : List Entity) :
    matchesOf field .null related = [] := rfl

theorem matchesOf_eq {field : String} {value : Value} (given : value ≠ .null)
    (related : List Entity) :
    matchesOf field value related =
      related.filter fun entity => (entity.get field).isIn [value] := by
  simp [matchesOf, Value.isNull_eq_false.mpr given, Value.isIn]

/-- Leaving out related entities that match none of some values changes nothing for those values. -/
theorem matchesOf_filter {field : String} {value : Value} {values : List Value}
    (member : value = .null ∨ value ∈ values) (related : List Entity) :
    matchesOf field value (related.filter fun entity => (entity.get field).isIn values) =
      matchesOf field value related := by
  cases member with
  | inl isNull =>
      subst isNull
      rfl
  | inr member =>
      unfold matchesOf
      split
      · rfl
      · rw [List.filter_filter]
        refine List.filter_congr fun entity _ => ?_
        cases coincide : (entity.get field).coincides value with
        | false => rfl
        | true =>
            rw [Bool.true_and]
            exact List.any_eq_true.mpr ⟨value, member, coincide⟩

/-- Asking for the entities related to fewer values yields those of the others that hold them. -/
def Picks (getRelated : QuerySpec → Action (Memory × τ) (List Entity)) (state : Memory × τ)
    (target : Resource) (field : String) (step : RelationStep) : Prop :=
  ∀ (leaf narrow : Filter.Leaf) (values narrowed : List Value) (related : List Entity),
    leaf.Joins field values → narrow.Joins field narrowed → narrowed ⊆ values →
      (getRelated (target.relatedSpec leaf step.request step.below)).Yields state related →
        (getRelated (target.relatedSpec narrow step.request step.below)).Yields state
          (related.filter fun entity => (entity.get field).isIn narrowed)

/-- A relation is loaded for each entity as if there were no other, and for a part of the entities
as for the whole. -/
theorem loadRelation_each
    (quiet : ∀ spec, (getRelated spec).Ensures (· = ·) fun _ => True)
    (isRelation : owner.relation step.request.path = .ok relation)
    (isTarget : registry.resource relation.target = .ok target)
    (picks : Picks getRelated state target (relation.targetField owner target) step)
    (joins : ∀ entity ∈ entities,
      (entity.get (relation.ownerField owner target)).isJoining = true)
    (done : (loadRelation getRelated registry owner entities step).Yields state loaded) :
    ∃ related,
      loaded = entities.map (attachTo relation owner target step.request.window related) ∧
      (∀ entity ∈ entities, entity.get (relation.ownerField owner target) ≠ .null →
        (getRelated (target.relatedSpec ⟨(relation.targetField owner target), .eq,
          entity.get (relation.ownerField owner target), .both⟩ step.request
            step.below)).Yields state (matchesOf (relation.targetField owner target)
              (entity.get (relation.ownerField owner target)) related)) ∧
      ∀ part ⊆ entities, (loadRelation getRelated registry owner part step).Yields state
        (part.map (attachTo relation owner target step.request.window related)) := by
  obtain ⟨related, asked, rfl⟩ := (loadRelation_yields quiet isRelation isTarget joins).mp done
  have found : ∀ value ∈ joiningValues (relation.ownerField owner target) entities,
      (getRelated (target.relatedSpec (leafIn (relation.targetField owner target)
        (joiningValues (relation.ownerField owner target) entities)) step.request
          step.below)).Yields state related := by
    intro value member
    rwa [if_neg (List.ne_nil_of_mem member)] at asked
  have joinsIn : ∀ values : List Value, (∀ value ∈ values, value.isJoining = true ∧ value ≠ .null) →
      (leafIn (relation.targetField owner target) values).Joins
        (relation.targetField owner target) values :=
    fun values given => Filter.Leaf.joins_isIn fun isNull => (given .null isNull).2 rfl
  refine ⟨related, rfl, ?_, ?_⟩
  · intro entity isEntity given
    have member := (mem_joiningValues joins).mpr ⟨given, entity, isEntity, rfl⟩
    rw [matchesOf_eq given]
    exact picks _ _ _ _ related (joinsIn _ (joiningValues_joins joins))
      (Filter.Leaf.joins_eq given) (by simpa using member) (found _ member)
  · intro part included
    have partJoins : ∀ entity ∈ part,
        (entity.get (relation.ownerField owner target)).isJoining = true :=
      fun entity isEntity => joins entity (included isEntity)
    have narrowed := joiningValues_subset joins included
    refine (loadRelation_yields quiet isRelation isTarget partJoins).mpr
      ⟨related.filter fun entity => (entity.get (relation.targetField owner target)).isIn
        (joiningValues (relation.ownerField owner target) part), ?_, ?_⟩
    · split
      · rename_i none
        rw [none]
        exact List.filter_eq_nil_iff.mpr fun entity _ isIn => by cases isIn
      · rename_i some
        obtain ⟨value, member⟩ := List.exists_mem_of_ne_nil _ some
        exact picks _ _ _ _ related (joinsIn _ (joiningValues_joins joins))
          (joinsIn _ (joiningValues_joins partJoins)) narrowed (found value (narrowed member))
    · refine List.map_congr_left fun entity isEntity => ?_
      rw [attachTo, attachTo, matchesOf_filter (null_or_mem_joiningValues partJoins isEntity)]

/-- What a step leads to from an entity: what is found when it is asked for alone. -/
def LoadedThrough (getRelated : QuerySpec → Action (Memory × τ) (List Entity))
    (registry : Registry) (state : Memory × τ) (owner : Resource) (entity : Entity)
    (step : RelationStep) : Prop :=
  ∃ relation target found, owner.relation step.request.path = .ok relation ∧
    registry.resource relation.target = .ok target ∧
    entity.relations.lookup relation.name =
      some (relation.related step.request.window found) ∧
    (entity.get (relation.ownerField owner target) = .null → found = []) ∧
    (entity.get (relation.ownerField owner target) ≠ .null →
      (getRelated (target.relatedSpec ⟨relation.targetField owner target, .eq,
        entity.get (relation.ownerField owner target), .both⟩ step.request step.below)).Yields state
          found)

theorem attachTo_loadedThrough {entity : Entity} {related : List Entity}
    (isRelation : owner.relation step.request.path = .ok relation)
    (isTarget : registry.resource relation.target = .ok target)
    (alone : entity.get (relation.ownerField owner target) ≠ .null →
      (getRelated (target.relatedSpec ⟨relation.targetField owner target, .eq,
        entity.get (relation.ownerField owner target), .both⟩ step.request step.below)).Yields state
          (matchesOf (relation.targetField owner target)
            (entity.get (relation.ownerField owner target)) related)) :
    LoadedThrough getRelated registry state owner
      (attachTo relation owner target step.request.window related entity) step := by
  refine ⟨relation, target, matchesOf (relation.targetField owner target)
    (entity.get (relation.ownerField owner target)) related, isRelation, isTarget, ?_, ?_, ?_⟩
  · rw [attachTo, Entity.lookup_attach, if_pos rfl]
  · rw [attachTo, Entity.get_attach]
    intro isNull
    rw [isNull, matchesOf_null]
  · rw [attachTo, Entity.get_attach]
    exact alone

theorem LoadedThrough.keep {entity kept : Entity}
    (loaded : LoadedThrough getRelated registry state owner entity step)
    (sameAttributes : kept.attributes = entity.attributes)
    (sameRelated : ∀ relation, owner.relation step.request.path = .ok relation →
      kept.relations.lookup relation.name = entity.relations.lookup relation.name) :
    LoadedThrough getRelated registry state owner kept step := by
  obtain ⟨relation, target, found, isRelation, isTarget, shown, none, some⟩ := loaded
  have sameValue : ∀ name, kept.get name = entity.get name := by
    intro name
    rw [Entity.get, sameAttributes]
    rfl
  refine ⟨relation, target, found, isRelation, isTarget, ?_, ?_, ?_⟩
  · rw [sameRelated relation isRelation, shown]
  · rw [sameValue]
    exact none
  · rw [sameValue]
    exact some

/-- Loading the relations of steps changes each of some entities, whichever of them are loaded
together. -/
structure Changes (getRelated : QuerySpec → Action (Memory × τ) (List Entity))
    (registry : Registry) (state : Memory × τ) (owner : Resource) (steps : List RelationStep)
    (entities : List Entity) (change : Entity → Entity) : Prop where
  attributes : ∀ entity, (change entity).attributes = entity.attributes
  frame : ∀ entity name, (∀ step ∈ steps, ∀ relation,
    owner.relation step.request.path = .ok relation → relation.name ≠ name) →
      (change entity).relations.lookup name = entity.relations.lookup name
  loaded : ∀ entity ∈ entities, ∀ step ∈ steps,
    LoadedThrough getRelated registry state owner (change entity) step
  parts : ∀ part ⊆ entities, (steps.foldlM (loadRelation getRelated registry owner) part).Yields
    state (part.map change)

theorem Changes.nil : Changes getRelated registry state owner [] entities id where
  attributes _ := rfl
  frame _ _ _ := rfl
  loaded _ _ := List.forall_mem_nil _
  parts part _ := by
    rw [List.map_id]
    rfl

theorem Changes.cons {rest : List RelationStep} {related : List Entity} {change : Entity → Entity}
    (isRelation : owner.relation step.request.path = .ok relation)
    (isTarget : registry.resource relation.target = .ok target)
    (different : ∀ later ∈ rest, ∀ second,
      owner.relation later.request.path = .ok second → relation.name ≠ second.name)
    (alone : ∀ entity ∈ entities, entity.get (relation.ownerField owner target) ≠ .null →
      (getRelated (target.relatedSpec ⟨relation.targetField owner target, .eq,
        entity.get (relation.ownerField owner target), .both⟩ step.request step.below)).Yields state
          (matchesOf (relation.targetField owner target)
            (entity.get (relation.ownerField owner target)) related))
    (first : ∀ part ⊆ entities, (loadRelation getRelated registry owner part step).Yields state
      (part.map (attachTo relation owner target step.request.window related)))
    (later : Changes getRelated registry state owner rest
      (entities.map (attachTo relation owner target step.request.window related)) change) :
    Changes getRelated registry state owner (step :: rest) entities
      (change ∘ attachTo relation owner target step.request.window related) where
  attributes entity := (later.attributes _).trans (Entity.attributes_attach ..)
  frame entity name other := by
    rw [List.forall_mem_cons] at other
    rw [Function.comp_apply, later.frame _ name other.2, attachTo, Entity.lookup_attach,
      if_neg (Ne.symm (other.1 relation isRelation))]
  loaded entity isEntity asked member := by
    cases List.mem_cons.mp member with
    | inl same =>
        subst same
        refine (attachTo_loadedThrough isRelation isTarget (alone entity isEntity)).keep
          (later.attributes _) ?_
        intro same isSame
        cases isRelation.symm.trans isSame
        exact later.frame _ relation.name fun next isNext second isSecond =>
          Ne.symm (different next isNext second isSecond)
    | inr isLater => exact later.loaded _ (List.mem_map_of_mem isEntity) asked isLater
  parts part included := by
    rw [List.foldlM_cons, ← List.map_map]
    exact .bind (first part included) (later.parts _ (List.map_subset _ included))

/-- A property of all relations that steps ask for. -/
def OfSteps (registry : Registry) (owner : Resource) (steps : List RelationStep)
    (property : RelationStep → Relation → Resource → Prop) : Prop :=
  ∀ step ∈ steps, ∀ relation target, owner.relation step.request.path = .ok relation →
    registry.resource relation.target = .ok target → property step relation target

/-- The relations of all steps are loaded for each entity as if there were no other, and for a part
of the entities as for the whole. -/
theorem foldlM_loadRelation_each {steps : List RelationStep}
    (quiet : ∀ spec, (getRelated spec).Ensures (· = ·) fun _ => True)
    (different : steps.Pairwise fun earlier later => ∀ first second,
      owner.relation earlier.request.path = .ok first →
        owner.relation later.request.path = .ok second → first.name ≠ second.name)
    (picks : OfSteps registry owner steps fun step relation target =>
      Picks getRelated state target (relation.targetField owner target) step)
    (joins : OfSteps registry owner steps fun _ relation target => ∀ entity ∈ entities,
      (entity.get (relation.ownerField owner target)).isJoining = true)
    (done : (steps.foldlM (loadRelation getRelated registry owner) entities).Yields state loaded) :
    ∃ change, loaded = entities.map change ∧
      Changes getRelated registry state owner steps entities change := by
  induction steps generalizing entities with
  | nil =>
      cases done
      exact ⟨id, (List.map_id _).symm, .nil⟩
  | cons step rest induction =>
      rw [List.foldlM_cons] at done
      obtain ⟨middle, first, later⟩ :=
        (loadRelation_ensures quiet registry owner entities step).yields_bind done
      obtain ⟨relation, isRelation, opened⟩ := Action.perform_compute_eq_ok.mp first
      obtain ⟨target, isTarget, _⟩ := Action.perform_compute_eq_ok.mp opened
      obtain ⟨related, rfl, alone, parts⟩ := loadRelation_each quiet isRelation isTarget
        (picks step List.mem_cons_self relation target isRelation isTarget)
        (joins step List.mem_cons_self relation target isRelation isTarget) first
      rw [List.pairwise_cons] at different
      have laterJoins : OfSteps registry owner rest fun _ relation' target' =>
          ∀ entity ∈ entities.map (attachTo relation owner target step.request.window related),
            (entity.get (relation'.ownerField owner target')).isJoining = true := by
        intro asked member relation' target' isRelation' isTarget' entity isEntity
        obtain ⟨before, isBefore, rfl⟩ := List.mem_map.mp isEntity
        rw [attachTo, Entity.get_attach]
        exact joins asked (List.mem_cons_of_mem step member) relation' target' isRelation'
          isTarget' before isBefore
      obtain ⟨change, rfl, changes⟩ := induction different.2
        (fun asked member => picks asked (List.mem_cons_of_mem step member)) laterJoins later
      refine ⟨_, List.map_map .., .cons isRelation isTarget ?_ alone parts changes⟩
      intro asked member second isSecond
      exact different.1 asked member relation second isRelation isSecond

end Level

end Store

end ResourceServer
