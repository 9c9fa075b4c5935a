import ResourceServer.Proofs.Filter.Grammar
import ResourceServer.Proofs.Resolution.Specification

/-!
# Loading by executable specifications

A computation resolves its names when it does not fail because a relation, a resource or a column
is unknown.  Reading from a store that fetches rows and counts them in this way loads relations in
this way, too: each one is declared, its target is registered, and the query for the related
entities is executable in its turn.
-/

namespace ResourceServer

/-- The failures that say that a relation, a resource or a column is not known. -/
def Error.isUnknownName : Error → Bool
  | .lookup _ => true
  | .configuration (.unknownResource _) => true
  | .value (.unknownField ..) => true
  | .plain .compilation => true
  | _ => false

/-! ## Computations -/

/-- A computation that does not fail for an unknown name. -/
def Resolved {α : Type} (result : Except Error α) : Prop :=
  ∀ error, result = .error error → error.isUnknownName = false

namespace Resolved

variable {α β : Type}

theorem ok (value : α) : Resolved (.ok value : Except Error α) := nofun

theorem error {error : Error} (known : error.isUnknownName = false) :
    Resolved (.error error : Except Error α) := by
  intro other same
  cases same
  exact known

theorem bind {result : Except Error α} {next : α → Except Error β} (first : Resolved result)
    (rest : ∀ value, result = .ok value → Resolved (next value)) : Resolved (result >>= next) := by
  intro error failed
  rcases bind_eq_error.mp failed with failed | ⟨value, done, failed⟩
  · exact first error failed
  · exact rest value done error failed

theorem map {result : Except Error α} (resolved : Resolved result) (change : α → β) :
    Resolved (result.map change) := by
  cases result with
  | ok value => exact ok (change value)
  | error cause => exact error (resolved cause rfl)

theorem mapM {step : α → Except Error β} {items : List α}
    (each : ∀ item ∈ items, Resolved (step item)) : Resolved (items.mapM step) := by
  intro error failed
  obtain ⟨item, member, failed⟩ := exists_of_mapM_error failed
  exact each item member error failed

theorem foldlM {step : β → α → Except Error β} {items : List α}
    (each : ∀ item ∈ items, ∀ value, Resolved (step value item)) (value : β) :
    Resolved (items.foldlM step value) := by
  induction items generalizing value with
  | nil => exact ok value
  | cons item rest induction =>
      rw [List.forall_mem_cons] at each
      rw [List.foldlM_cons]
      exact bind (each.1 value) fun next _ => induction each.2 next

end Resolved

/-! ## Actions -/

/-- From a state with a property the action does not fail for an unknown name.  The state keeps its
property, and what is yielded has one of its own. -/
def Action.Resolves {σ α : Type} (holds : σ → Prop) (property : α → Prop) (action : Action σ α) :
    Prop :=
  ∀ state, holds state → Resolved (action.perform state).1 ∧ holds (action.perform state).2 ∧
    ∀ value, (action.perform state).1 = .ok value → property value

namespace Action.Resolves

variable {σ α β : Type} {holds : σ → Prop} {property : α → Prop} {final : β → Prop}

theorem pure {value : α} (isProper : property value) :
    (Pure.pure value : Action σ α).Resolves holds property := by
  intro state isState
  refine ⟨.ok value, isState, ?_⟩
  intro result done
  cases done
  exact isProper

theorem ofExcept {result : Except Error α} (resolved : Resolved result) :
    (Action.ofExcept result : Action σ α).Resolves holds fun value => result = .ok value := by
  intro state isState
  cases result with
  | ok value => exact ⟨.ok value, isState, fun _ done => done⟩
  | error error => exact ⟨resolved, isState, nofun⟩

theorem bind {action : Action σ α} {next : α → Action σ β} (first : action.Resolves holds property)
    (rest : ∀ value, property value → (next value).Resolves holds final) :
    (action >>= next).Resolves holds final := by
  intro state isState
  obtain ⟨resolved, isMiddle, proper⟩ := first state isState
  cases run : action.perform state with
  | mk result middle =>
      rw [run] at resolved isMiddle proper
      cases result with
      | error error =>
          rw [Action.perform_bind_error run]
          exact ⟨.error (resolved error rfl), isMiddle, nofun⟩
      | ok value =>
          rw [Action.perform_bind_ok run]
          exact rest value (proper value rfl) middle isMiddle

theorem weaken {weaker : α → Prop} {action : Action σ α}
    (resolves : action.Resolves holds property) (implies : ∀ value, property value → weaker value) :
    action.Resolves holds weaker := by
  intro state isState
  obtain ⟨resolved, isState, proper⟩ := resolves state isState
  exact ⟨resolved, isState, fun value done => implies value (proper value done)⟩

theorem foldlM {step : β → α → Action σ β} {items : List α}
    (each : ∀ item ∈ items, ∀ value, (step value item).Resolves holds fun _ => True) (value : β) :
    (items.foldlM step value).Resolves holds fun _ => True := by
  induction items generalizing value with
  | nil => exact pure trivial
  | cons item rest induction =>
      rw [List.forall_mem_cons] at each
      rw [List.foldlM_cons]
      exact bind (each.1 value) fun next _ => induction each.2 next

end Action.Resolves

/-! ## Stores -/

/-- A store whose states with a property resolve the names of executable specifications.  The rows
that it fetches have a key. -/
structure Store.Resolving (σ : Type) [Store σ] (registry : Registry) (holds : σ → Prop) : Prop where
  fetches : ∀ spec : QuerySpec, spec.Executable registry → ∀ offset limit,
    (Store.fetchRows registry spec offset limit : Action σ (List Record)).Resolves holds
      fun rows => ∀ row ∈ rows, row.has spec.resource.keyName = true
  counts : ∀ spec : QuerySpec, spec.Executable registry →
    (Store.count registry spec : Action σ Int).Resolves holds fun _ => True

/-- Reading by a specification does not fail for an unknown name. -/
structure QuerySpec.Materializes {σ : Type} [Store σ] (registry : Registry) (spec : QuerySpec)
    (state : σ) : Prop where
  get : Resolved ((Store.get registry spec : Action σ _).perform state).1
  first : Resolved ((Store.first registry spec : Action σ _).perform state).1
  paginate : ∀ page perPage,
    Resolved ((Store.paginate registry spec page perPage : Action σ _).perform state).1
  count : Resolved ((Store.count registry spec : Action σ _).perform state).1

namespace Store

variable {σ : Type} {holds : σ → Prop} {registry : Registry}

theorem relatedQuery_resolved (target : Resource) (field : String) (values : List Value)
    (request : RelationRequest) (below : List RelationRequest) :
    Resolved (relatedQuery target field values request below) := by
  rw [relatedQuery_eq]
  refine .map ?_ _
  intro error failed
  obtain ⟨report, rest, rfl⟩ := Filter.Leaf.make_error failed
  rfl

/-- A relation that joins known columns is loaded when its query is run. -/
theorem loadRelation_resolves {getRelated : QuerySpec → Action σ (List Entity)} {owner : Resource}
    {step : RelationStep} {columns : List String}
    (joins : registry.Joins owner step.request.path columns)
    (loads : ∀ relation target values query, owner.relation step.request.path = .ok relation →
      registry.resource relation.target = .ok target →
        relatedQuery target (relation.targetField owner target) values step.request step.below =
            .ok query →
          (getRelated query).Resolves holds fun _ => True)
    (entities : List Entity) :
    (loadRelation getRelated registry owner entities step).Resolves holds fun _ => True := by
  obtain ⟨relation, target, declared, known, _⟩ := joins
  unfold loadRelation
  rw [declared, Action.ofExcept_ok, pure_bind, known, Action.ofExcept_ok, pure_bind]
  dsimp only
  split
  · exact .pure trivial
  · refine .bind (.ofExcept (relatedQuery_resolved _ _ _ _ _)) ?_
    intro query isQuery
    exact .bind (loads relation target _ query declared known isQuery) fun _ _ => .pure trivial

variable [Store σ]

/-- Relations are loaded up to any depth, by induction on it, when everything that the specification
leads to is executable. -/
theorem hydrateTo_resolves (resolving : Store.Resolving σ registry holds) (depth : Nat)
    {spec : QuerySpec} (executable : ∀ last, spec.LeadsTo registry last → last.Executable registry)
    {rows : List Record} (keyed : ∀ row ∈ rows, row.has spec.resource.keyName = true) :
    (hydrateTo registry depth spec rows : Action σ _).Resolves holds fun _ => True := by
  have entities : entitiesOf spec.resource rows = .ok (rows.map (entityOf spec.resource)) :=
    entitiesOf_eq_ok.mpr ⟨keyed, rfl⟩
  induction depth generalizing spec rows with
  | zero =>
      rw [hydrateTo, entities]
      exact .pure trivial
  | succ depth induction =>
      rw [hydrateTo, entities, Action.ofExcept_ok, pure_bind]
      split
      · exact .pure trivial
      · refine .foldlM (fun step member loaded => ?_) _
        have isExecutable := executable spec (.refl spec)
        refine loadRelation_resolves (isExecutable.steps step member) ?_ loaded
        intro relation target values query declared known isQuery
        have leadsOn : ∀ last, query.LeadsTo registry last → last.Executable registry :=
          fun last onward => executable last (.through member declared known isQuery onward)
        refine .bind (resolving.fetches query (leadsOn query (.refl query)) none none) ?_
        intro rows keyed
        exact induction leadsOn keyed (entitiesOf_eq_ok.mpr ⟨keyed, rfl⟩)

theorem fetch_hydrate_resolves (resolving : Store.Resolving σ registry holds) {spec : QuerySpec}
    (executable : ∀ last, spec.LeadsTo registry last → last.Executable registry)
    (offset limit : Option Int) :
    (fetchRows registry spec offset limit >>= hydrate registry spec : Action σ _).Resolves holds
      fun _ => True :=
  .bind (resolving.fetches spec (executable spec (.refl spec)) offset limit) fun _ keyed =>
    hydrateTo_resolves resolving _ executable keyed

/-- What leads to executable specifications only can be read in every way. -/
theorem Resolving.materializes (resolving : Store.Resolving σ registry holds) {spec : QuerySpec}
    (executable : ∀ last, spec.LeadsTo registry last → last.Executable registry) {state : σ}
    (isState : holds state) : spec.Materializes registry state := by
  have counts := resolving.counts spec (executable spec (.refl spec))
  refine ⟨?_, ?_, fun page perPage => ?_, (counts state isState).1⟩
  · exact (fetch_hydrate_resolves resolving executable none none state isState).1
  · have first : (Store.first registry spec : Action σ _).Resolves holds fun _ => True := by
      have fetched := fetch_hydrate_resolves resolving executable none (some 1)
      have whole := fetched.bind fun entities (_ : True) =>
        (.pure trivial : (Pure.pure entities.head? : Action σ _).Resolves holds fun _ => True)
      rwa [bind_assoc] at whole
    exact (first state isState).1
  · have paged : (Store.paginate registry spec page perPage : Action σ _).Resolves holds
        fun _ => True := by
      refine .bind counts fun total _ => ?_
      have fetched := fetch_hydrate_resolves resolving executable (some ((page - 1) * perPage))
        (some perPage)
      have whole := fetched.bind fun items (_ : True) =>
        (.pure trivial :
          (Pure.pure ⟨items, total, page, perPage⟩ : Action σ Page).Resolves holds fun _ => True)
      rwa [bind_assoc] at whole
    exact (paged state isState).1

end Store

end ResourceServer
