import ResourceServer.Proofs.Memory.Transaction

/-!
# Reading from the store in memory

Loading entities leaves the store as it is, and the entities that are loaded are the rows
that were fetched: relations are attached to them, but their keys and attributes stay.
-/

namespace ResourceServer

/-- An entity without its relations. -/
def Entity.bare (entity : Entity) : Entity := entity.withRelations []

@[simp] theorem Entity.bare_attach (entity : Entity) (name : String) (related : Related) :
    (entity.attach name related).bare = entity.bare := by
  cases entity
  rfl

@[simp] theorem Entity.key_bare (entity : Entity) : entity.bare.key = entity.key := by
  cases entity
  rfl

/-- What holds initially and what each item passes on holds of the items that are done. -/
theorem Action.Ensures.foldlM_done {σ α β : Type} {relation : σ → σ → Prop} [Std.Refl relation]
    [IsTrans σ relation] {property : List α → β → Prop} {step : β → α → Action σ β}
    {items : List α}
    (steps : ∀ done item rest, items = done ++ item :: rest → ∀ value, property done value →
      (step value item).Ensures relation (property (done ++ [item])))
    {value : β} (holds : property [] value) :
    (items.foldlM step value).Ensures relation (property items) := by
  have general : ∀ rest done, items = done ++ rest → ∀ value, property done value →
      (rest.foldlM step value).Ensures relation (property items) := by
    intro rest
    induction rest with
    | nil =>
        intro done split value holds
        rw [List.append_nil] at split
        rw [split]
        exact .pure holds
    | cons item rest induction =>
        intro done split value holds
        rw [List.foldlM_cons]
        refine .bind (steps done item rest split value holds) fun next holds => ?_
        exact induction (done ++ [item]) (by rw [split, List.append_assoc]; rfl) next holds
  exact general items [] rfl value holds

theorem Action.Ensures.foldlM {σ α β : Type} {relation : σ → σ → Prop} [Std.Refl relation]
    [IsTrans σ relation] {property : β → Prop} {step : β → α → Action σ β}
    (steps : ∀ value, property value → ∀ item, (step value item).Ensures relation property)
    (items : List α) {value : β} (holds : property value) :
    (items.foldlM step value).Ensures relation property :=
  .foldlM_done (fun _ item _ _ value holds => steps value holds item) holds

namespace Store

variable {τ : Type}

theorem loadRelation_ensures {getRelated : QuerySpec → Action (Memory × τ) (List Entity)}
    (quiet : ∀ spec, (getRelated spec).Ensures (· = ·) fun _ => True) (registry : Registry)
    (owner : Resource) (entities : List Entity) (step : RelationStep) :
    (loadRelation getRelated registry owner entities step).Ensures (· = ·)
      fun loaded => loaded.map Entity.bare = entities.map Entity.bare := by
  refine Action.Ensures.bind (.compute _) fun relation _ => ?_
  refine Action.Ensures.bind (.compute _) fun target _ => ?_
  generalize relation.joiningFields owner target = fields
  obtain ⟨ownerField, targetField⟩ := fields
  have attached : ∀ related : List Entity,
      (pure (entities.map fun entity => entity.attach relation.name
        (relation.related step.request.window
          (matchesOf targetField (entity.get ownerField) related))) :
            Action (Memory × τ) (List Entity)).Ensures (· = ·)
        fun loaded => loaded.map Entity.bare = entities.map Entity.bare :=
    fun related => .pure (by simp [Function.comp_def])
  dsimp only
  split
  · exact attached []
  · refine Action.Ensures.bind (.compute _) fun spec _ => ?_
    exact .bind (quiet spec) fun related _ => attached related

theorem bare_entityOf (resource : Resource) (row : Record) :
    (entityOf resource row).bare = entityOf resource row := rfl

theorem entitiesOf_eq_ok {resource : Resource} {rows : List Record} {entities : List Entity} :
    entitiesOf resource rows = .ok entities ↔
      (∀ row ∈ rows, row.has resource.keyName) ∧ entities = rows.map (entityOf resource) := by
  unfold entitiesOf
  split
  · rename_i missing
    simp only [List.any_eq_true, Bool.not_eq_eq_eq_not, Bool.not_true] at missing
    obtain ⟨row, member, lacks⟩ := missing
    constructor
    · intro done
      cases done
    · rintro ⟨complete, _⟩
      rw [complete row member] at lacks
      cases lacks
  · rename_i missing
    simp only [List.any_eq_true, Bool.not_eq_eq_eq_not, Bool.not_true, not_exists, not_and,
      Bool.not_eq_false] at missing
    constructor
    · intro done
      cases done
      exact ⟨missing, rfl⟩
    · rintro ⟨_, rfl⟩
      rfl

/-- What is loaded from rows: their entities, as they stand apart from relations. -/
def Loads (resource : Resource) (rows : List Record) (entities : List Entity) : Prop :=
  (∀ row ∈ rows, row.has resource.keyName) ∧
    entities.map Entity.bare = rows.map (entityOf resource)

theorem entitiesOf_ensures (resource : Resource) (rows : List Record) :
    (Action.ofExcept (entitiesOf resource rows) : Action (Memory × τ) _).Ensures (· = ·)
      (Loads resource rows) := by
  refine .ofExcept ?_
  intro entities done
  obtain ⟨complete, rfl⟩ := entitiesOf_eq_ok.mp done
  exact ⟨complete, by simp [Function.comp_def, bare_entityOf]⟩

theorem hydrateTo_ensures (registry : Registry) (depth : Nat) (spec : QuerySpec)
    (rows : List Record) :
    (hydrateTo registry depth spec rows : Action (Memory × τ) _).Ensures (· = ·)
      (Loads spec.resource rows) := by
  induction depth generalizing spec rows with
  | zero => exact entitiesOf_ensures spec.resource rows
  | succ depth induction =>
      rw [hydrateTo]
      refine .bind (entitiesOf_ensures spec.resource rows) fun entities loads => ?_
      split
      · exact .pure loads
      · refine .foldlM ?_ _ loads
        intro entities loads step
        refine (loadRelation_ensures ?_ registry spec.resource entities step).weaken ?_
        · intro related
          refine .bind (Memory.fetchRows_ensures _ _ _ _) fun rows _ => ?_
          exact (induction related rows).weaken fun _ _ => trivial
        · intro loaded same
          exact ⟨loads.1, same.trans loads.2⟩

theorem hydrate_ensures (registry : Registry) (spec : QuerySpec) (rows : List Record) :
    (hydrate registry spec rows : Action (Memory × τ) _).Ensures (· = ·)
      (Loads spec.resource rows) :=
  hydrateTo_ensures registry _ spec rows

section Inversion

variable {registry : Registry} {spec : QuerySpec} {memory : Memory} {side : τ}
variable {after : Memory × τ} {offset limit : Option Int} {entities : List Entity}

/-- Fetching and loading yields rows of the contents, as they stand. -/
theorem fetch_hydrate_eq_ok
    (done : (fetchRows registry spec offset limit >>= hydrate registry spec).perform
      (memory, side) = (.ok entities, after)) :
    after = (memory, side) ∧ ∃ rows,
      memory.contents.fetchRows registry spec offset limit = .ok rows ∧
        Loads spec.resource rows entities := by
  obtain ⟨rows, middle, fetched, hydrated⟩ := Action.perform_bind_eq_ok.mp done
  rw [Memory.perform_fetchRows, Prod.mk.injEq] at fetched
  obtain ⟨fetched, rfl⟩ := fetched
  obtain ⟨same, loads⟩ := (hydrate_ensures registry spec rows).relatesOk hydrated
  exact ⟨same.symm, rows, fetched, loads⟩

theorem get_eq_ok
    (done : (get registry spec : Action (Memory × τ) _).perform (memory, side) =
      (.ok entities, after)) :
    after = (memory, side) ∧ ∃ rows,
      memory.contents.fetchRows registry spec none none = .ok rows ∧
        Loads spec.resource rows entities :=
  fetch_hydrate_eq_ok done

theorem first_eq_ok {entity : Option Entity}
    (done : (first registry spec : Action (Memory × τ) _).perform (memory, side) =
      (.ok entity, after)) :
    after = (memory, side) ∧ ∃ rows entities,
      memory.contents.fetchRows registry spec none (some 1) = .ok rows ∧
        Loads spec.resource rows entities ∧ entity = entities.head? := by
  obtain ⟨rows, middle, fetched, done⟩ := Action.perform_bind_eq_ok.mp done
  obtain ⟨entities, last, hydrated, done⟩ := Action.perform_bind_eq_ok.mp done
  cases done
  obtain ⟨same, rows, isFetched, loads⟩ :=
    fetch_hydrate_eq_ok (Action.perform_bind_eq_ok.mpr ⟨rows, middle, fetched, hydrated⟩)
  exact ⟨same, rows, entities, isFetched, loads, rfl⟩

theorem paginate_eq_ok {number perPage : Int} {page : Page}
    (done : (paginate registry spec number perPage : Action (Memory × τ) _).perform
      (memory, side) = (.ok page, after)) :
    after = (memory, side) ∧ ∃ rows,
      memory.contents.fetchRows registry spec (some ((number - 1) * perPage)) (some perPage) =
          .ok rows ∧
        Loads spec.resource rows page.items := by
  obtain ⟨total, middle, counted, done⟩ := Action.perform_bind_eq_ok.mp done
  have same : middle = (memory, side) := (congrArg Prod.snd counted).symm
  subst same
  obtain ⟨rows, middle, fetched, done⟩ := Action.perform_bind_eq_ok.mp done
  obtain ⟨items, last, hydrated, done⟩ := Action.perform_bind_eq_ok.mp done
  cases done
  exact fetch_hydrate_eq_ok (Action.perform_bind_eq_ok.mpr ⟨rows, middle, fetched, hydrated⟩)

end Inversion

end Store

end ResourceServer
