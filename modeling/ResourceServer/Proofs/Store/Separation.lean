import ResourceServer.Proofs.Store.Steps

/-!
# Separation

The rows related to all entities of a level are found by one query, and those of a single
entity are picked from its result.  This goes well when results show the values that rows are
joined by, and when no NaN among the rows of one entity upsets the order of the others.
-/

namespace ResourceServer

/-- The column of the owner that a relation joins by. -/
abbrev Relation.ownerField (relation : Relation) (owner target : Resource) : String :=
  (relation.joiningFields owner target).1

/-- The column of the target that a relation joins by. -/
abbrev Relation.targetField (relation : Relation) (owner target : Resource) : String :=
  (relation.joiningFields owner target).2

/-- No two relations of a resource share a name. -/
def Registry.NamesRelations (registry : Registry) : Prop :=
  ∀ owner ∈ registry.resources, owner.relations.Pairwise fun first second =>
    first.2.name ≠ second.2.name

instance (registry : Registry) : Decidable registry.NamesRelations :=
  inferInstanceAs (Decidable (∀ owner ∈ registry.resources,
    owner.relations.Pairwise fun first second => first.2.name ≠ second.2.name))

instance Except.decidableForallOk {ε α : Type} (result : Except ε α) (property : α → Prop)
    [DecidablePred property] : Decidable (∀ value, result = .ok value → property value) :=
  match result with
  | .error _ => isTrue nofun
  | .ok value => decidable_of_iff (property value) (by simp)

/-- The columns that relations join by hold null, whole numbers and texts. -/
def Contents.Joins (contents : Contents) (registry : Registry) : Prop :=
  ∀ owner ∈ registry.resources, ∀ entry ∈ owner.relations, ∀ target,
    registry.resource entry.2.target = .ok target →
      (∀ row ∈ (contents.table owner.name).rows,
        (row.get (entry.2.ownerField owner target)).isJoining = true) ∧
      ∀ row ∈ (contents.table target.name).rows,
        (row.get (entry.2.targetField owner target)).isJoining = true

instance (contents : Contents) (registry : Registry) : Decidable (contents.Joins registry) :=
  inferInstanceAs (Decidable (∀ owner ∈ registry.resources, ∀ entry ∈ owner.relations, ∀ target,
    registry.resource entry.2.target = .ok target →
      (∀ row ∈ (contents.table owner.name).rows,
        (row.get (entry.2.ownerField owner target)).isJoining = true) ∧
      ∀ row ∈ (contents.table target.name).rows,
        (row.get (entry.2.targetField owner target)).isJoining = true))

/-- The rows that a step leads to are sorted by fields without NaN, and the field that they are
joined by is shown in results: no count that they are sorted by takes its name. -/
structure RelationStep.Separable (contents : Contents) (target : Resource) (field : String)
    (step : RelationStep) : Prop where
  shows : contents.ShowsField target field
  uncounted : field ∉ (sortAggregates target step.request).map AggregateRequest.alias
  orderly : ∀ row ∈ (contents.table target.name).rows, (row.get target.keyName).Orderly ∧
    ∀ directive ∈ step.request.sort, (row.get directive.field).Orderly

/-- All steps along the paths of some requests are separable. -/
inductive Registry.Separates (registry : Registry) (contents : Contents) :
    Resource → List RelationRequest → Prop where
  | intro {owner : Resource} {requests : List RelationRequest}
      (steps : ∀ step ∈ RelationStep.ofRequests requests, ∀ relation target,
        owner.relation step.request.path = .ok relation →
          registry.resource relation.target = .ok target →
            step.Separable contents target (relation.targetField owner target))
      (below : ∀ step ∈ RelationStep.ofRequests requests, ∀ relation target,
        owner.relation step.request.path = .ok relation →
          registry.resource relation.target = .ok target →
            registry.Separates contents target (mergeRequests step.below)) :
      registry.Separates contents owner requests

theorem Resource.mem_of_relation {owner : Resource} {path : String} {relation : Relation}
    (isRelation : owner.relation path = .ok relation) : (path, relation) ∈ owner.relations := by
  unfold Resource.relation at isRelation
  cases found : owner.relations.lookup path with
  | none =>
      rw [found] at isRelation
      cases isRelation
  | some declared =>
      rw [found] at isRelation
      cases isRelation
      exact Entries.mem_of_lookup found

theorem Registry.NamesRelations.name_ne {registry : Registry} {owner : Resource}
    {path other : String} {first second : Relation} (named : registry.NamesRelations)
    (registered : owner ∈ registry.resources) (different : path ≠ other)
    (isFirst : owner.relation path = .ok first) (isSecond : owner.relation other = .ok second) :
    first.name ≠ second.name := by
  have otherEntry : (path, first) ≠ (other, second) :=
    fun same => different (congrArg Prod.fst same)
  have : Std.Symm fun first second : String × Relation => first.2.name ≠ second.2.name :=
    ⟨fun _ _ differ => Ne.symm differ⟩
  exact (named owner registered).forall (Resource.mem_of_relation isFirst)
    (Resource.mem_of_relation isSecond) otherEntry

theorem Registry.NamesRelations.ofRequests_pairwise {registry : Registry} {owner : Resource}
    (named : registry.NamesRelations) (registered : owner ∈ registry.resources)
    (requests : List RelationRequest) :
    (RelationStep.ofRequests requests).Pairwise fun earlier later => ∀ first second,
      owner.relation earlier.request.path = .ok first →
        owner.relation later.request.path = .ok second → first.name ≠ second.name :=
  (RelationStep.ofRequests_pairwise requests).imp
    fun differ _ _ => named.name_ne registered differ

theorem Registry.mem_of_resource {registry : Registry} {name : String} {resource : Resource}
    (isResource : registry.resource name = .ok resource) : resource ∈ registry.resources := by
  unfold Registry.resource at isResource
  cases found : registry.find? name with
  | none =>
      rw [found] at isResource
      cases isResource
  | some registered =>
      rw [found] at isResource
      cases isResource
      exact List.mem_of_find?_eq_some found

theorem Record.get_orderly {row : Record} (each : ∀ entry ∈ row, entry.2.Orderly) (name : String) :
    (row.get name).Orderly := by
  unfold get
  cases found : row.lookup name with
  | none => exact .null
  | some value => exact each _ (Entries.mem_of_lookup found)

theorem RelationStep.separable {contents : Contents} {target : Resource} {field : String}
    (isColumn : field ∈ target.columns)
    (uncounted : ∀ name ∈ target.aggregates, (AggregateRequest.mk name).alias ≠ field)
    (orderly : ∀ row ∈ (contents.table target.name).rows, ∀ entry ∈ row, entry.2.Orderly)
    (step : RelationStep) : step.Separable contents target field where
  shows noColumn := absurd isColumn noColumn
  uncounted := by
    intro counted
    obtain ⟨aggregate, isSorted, same⟩ := List.mem_map.mp counted
    obtain ⟨name, isAggregate, rfl⟩ := List.mem_map.mp (List.mem_of_mem_filter isSorted)
    exact uncounted name isAggregate same
  orderly row isRow := ⟨Record.get_orderly (orderly row isRow) _,
    fun directive _ => Record.get_orderly (orderly row isRow) directive.field⟩

/-- When every step through a relation is separable, so are all steps along any paths. -/
theorem Registry.separates {registry : Registry} {contents : Contents} {owner : Resource}
    (separable : ∀ owner ∈ registry.resources, ∀ entry ∈ owner.relations, ∀ target,
      registry.resource entry.2.target = .ok target → ∀ step : RelationStep,
        step.Separable contents target (entry.2.targetField owner target))
    (registered : owner ∈ registry.resources) (requests : List RelationRequest) :
    registry.Separates contents owner requests := by
  have general : ∀ depth, ∀ owner ∈ registry.resources, ∀ requests : List RelationRequest,
      Store.includeDepth { resource := owner, includes := requests } ≤ depth →
        registry.Separates contents owner requests := by
    intro depth
    induction depth with
    | zero =>
        intro owner _ requests bounded
        have noSteps : RelationStep.ofRequests requests = [] := Store.ofRequests_eq_nil bounded
        refine .intro ?_ ?_
        · rw [noSteps]
          exact List.forall_mem_nil _
        · rw [noSteps]
          exact List.forall_mem_nil _
    | succ depth induction =>
        intro owner registered requests bounded
        refine .intro ?_ ?_
        · intro step _ relation target isRelation isTarget
          exact separable owner registered _ (Resource.mem_of_relation isRelation) target isTarget
            step
        · intro step member relation target _ isTarget
          exact induction target (mem_of_resource isTarget) _
            (Store.includeDepth_below member bounded rfl)
  exact general _ owner registered requests le_rfl

end ResourceServer
