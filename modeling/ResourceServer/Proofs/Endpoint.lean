import ResourceServer.Operations
import ResourceServer.Proofs.Batch.Conduct
import ResourceServer.Proofs.Memory.Reading

/-!
# Steps of an endpoint

A listing is granted and read before anything is fetched.  The steps that an endpoint gives to a
batch are over a store in memory: the request is checked before anything is done, finding targets
and reading rows back leave the store as it is, and a write is one of the few operations of the
store, for the resource of the endpoint and the key of the entity.
-/

namespace ResourceServer.Endpoint

section Listing

variable {σ : Type} [Store σ] {endpoint : Endpoint σ} {request : Request} {before after : σ}
variable {parameters : QueryParameters} {answer : Answer}

/-- A listing is answered with everything that its query selects, or with a page of it. -/
theorem collection_eq_ok :
    (endpoint.collection request parameters).perform before = (.ok answer, after) ↔
      ∃ requested spec, endpoint.readRelations request = .ok requested ∧
        QuerySpec.ofParameters endpoint.resource parameters requested endpoint.scopes = .ok spec ∧
        if parameters.pagination.disabled then
          ∃ listed, (Store.get endpoint.registry spec).perform before = (.ok listed, after) ∧
            answer = .envelope (.ofEntities requested listed)
        else
          ∃ page envelope, (Store.paginate endpoint.registry spec parameters.pagination.page
              parameters.pagination.limit).perform before = (.ok page, after) ∧
            Envelope.ofPage requested request.path page = .ok envelope ∧
              answer = .envelope envelope := by
  unfold collection
  constructor
  · intro done
    obtain ⟨requested, relations, done⟩ := Action.perform_compute_eq_ok.mp done
    obtain ⟨spec, built, done⟩ := Action.perform_compute_eq_ok.mp done
    refine ⟨requested, spec, relations, built, ?_⟩
    split at done
    · rename_i whole
      obtain ⟨listed, last, got, done⟩ := Action.perform_bind_eq_ok.mp done
      cases done
      rw [if_pos whole]
      exact ⟨listed, got, rfl⟩
    · rename_i paged
      obtain ⟨page, last, got, done⟩ := Action.perform_bind_eq_ok.mp done
      obtain ⟨envelope, wrapped, done⟩ := Action.perform_compute_eq_ok.mp done
      cases done
      rw [if_neg paged]
      exact ⟨page, envelope, got, wrapped, rfl⟩
  · rintro ⟨requested, spec, relations, built, fetched⟩
    refine Action.perform_compute_eq_ok.mpr ⟨requested, relations, ?_⟩
    refine Action.perform_compute_eq_ok.mpr ⟨spec, built, ?_⟩
    split at fetched
    · rename_i whole
      obtain ⟨listed, got, rfl⟩ := fetched
      rw [if_pos whole]
      exact Action.perform_bind_eq_ok.mpr ⟨listed, after, got, rfl⟩
    · rename_i paged
      obtain ⟨page, envelope, got, wrapped, rfl⟩ := fetched
      rw [if_neg paged]
      refine Action.perform_bind_eq_ok.mpr ⟨page, after, got, ?_⟩
      exact Action.perform_compute_eq_ok.mpr ⟨envelope, wrapped, rfl⟩

theorem index_eq_ok :
    (endpoint.index request).perform before = (.ok answer, after) ↔
      ∃ opened parameters,
        (endpoint.authorizeListing request).perform before = (.ok (), opened) ∧
        endpoint.readParameters request.query = .ok parameters ∧
        (endpoint.collection request parameters).perform opened = (.ok answer, after) := by
  unfold index
  constructor
  · intro done
    obtain ⟨_, opened, authorized, done⟩ := Action.perform_bind_eq_ok.mp done
    obtain ⟨parameters, read, done⟩ := Action.perform_compute_eq_ok.mp done
    exact ⟨opened, parameters, authorized, read, done⟩
  · rintro ⟨opened, parameters, authorized, read, done⟩
    refine Action.perform_bind_eq_ok.mpr ⟨(), opened, authorized, ?_⟩
    exact Action.perform_compute_eq_ok.mpr ⟨parameters, read, done⟩

end Listing

/-- A batch whose request is checked carries what the endpoint demands, and nothing is done. -/
theorem prepareBatch_eq_ok {σ : Type} {endpoint : Endpoint σ} {verb : BatchVerb} {request : Request}
    {input : BatchInput} {context : BatchContext} {plan : BatchPlan}
    (prepared : endpoint.prepareBatch verb request input = .ok (context, plan)) :
    BatchPlan.ofInput endpoint.binding verb input = .ok plan ∧
      ∃ parameters requested force,
        endpoint.readParameters request.parameters = .ok parameters ∧
        endpoint.readRelations request = .ok requested ∧
        context = { verb, resource := endpoint.resource, request, parameters, requested, force,
                    scopes := endpoint.scopes, attributes := endpoint.attributes } := by
  obtain ⟨checked, isPlan, prepared⟩ := bind_eq_ok.mp prepared
  obtain ⟨parameters, read, prepared⟩ := bind_eq_ok.mp prepared
  obtain ⟨requested, asked, prepared⟩ := bind_eq_ok.mp prepared
  dsimp only at prepared
  split at prepared
  · obtain ⟨force, _, prepared⟩ := bind_eq_ok.mp prepared
    cases prepared
    exact ⟨isPlan, parameters, requested, force, read, asked, rfl⟩
  · cases prepared
    exact ⟨isPlan, parameters, requested, false, read, asked, rfl⟩

variable {τ : Type} {relation : Memory × τ → Memory × τ → Prop}

theorem get_ensures (registry : Registry) (spec : QuerySpec) :
    (Store.get registry spec : Action (Memory × τ) _).Ensures (· = ·) fun _ => True := by
  refine .bind (Memory.fetchRows_ensures _ _ _ _) fun rows _ => ?_
  exact (Store.hydrate_ensures _ _ rows).weaken fun _ _ => trivial

/-- The entities that are found for keys have these keys. -/
theorem fetchTargets_named (endpoint : Endpoint (Memory × τ)) (context : BatchContext)
    (keys : List Value) :
    (endpoint.fetchTargets context keys).Ensures (· = ·) fun entities =>
      ∀ entity ∈ entities, ∃ key ∈ keys, entity.key.coincides key = true := by
  unfold fetchTargets
  split
  · exact .pure nofun
  · refine Action.Ensures.bind (.compute _) fun spec _ => ?_
    refine .bind (get_ensures endpoint.registry spec) fun found _ => .pure ?_
    intro entity member
    obtain ⟨key, isKey, last⟩ := List.mem_filterMap.mp member
    exact ⟨key, isKey, (List.mem_filter.mp (List.mem_of_getLast? last)).2⟩

theorem fetchTargets_ensures (endpoint : Endpoint (Memory × τ)) (context : BatchContext)
    (keys : List Value) :
    (endpoint.fetchTargets context keys).Ensures (· = ·) fun _ => True :=
  (endpoint.fetchTargets_named context keys).weaken fun _ _ => trivial

theorem targets_ensures (endpoint : Endpoint (Memory × τ)) (context : BatchContext)
    (plan : BatchPlan) : (endpoint.targets context plan).Ensures (· = ·) fun _ => True := by
  cases plan with
  | payloads payloads => exact .pure trivial
  | changes changes => exact .bind (endpoint.fetchTargets_ensures _ _) fun _ _ => .pure trivial
  | keys keys => exact .bind (endpoint.fetchTargets_ensures _ _) fun _ _ => .pure trivial

theorem refetch_ensures (endpoint : Endpoint (Memory × τ)) (context : BatchContext)
    (key : Value) : (endpoint.refetch context key).Ensures (· = ·) fun _ => True := by
  refine Action.Ensures.bind (.compute _) fun spec _ => ?_
  have found : (Store.first endpoint.registry spec : Action (Memory × τ) _).Ensures (· = ·)
      fun _ => True := by
    refine .bind (Memory.fetchRows_ensures _ _ _ _) fun rows _ => ?_
    exact .bind (Store.hydrate_ensures _ _ rows) fun _ _ => .pure trivial
  refine .bind found fun entity _ => ?_
  cases entity with
  | none => exact .throw _
  | some entity => exact .pure trivial

variable [Std.Refl relation] [IsTrans (Memory × τ) relation]

/-- A write is as good as the operations of the store that it is made of. -/
theorem mutate_ensures (endpoint : Endpoint (Memory × τ)) (context : BatchContext)
    (target : BatchTarget) (entity : Entity)
    (inserts : context.verb = .store → ∀ values,
      (Store.insert context.resource values : Action (Memory × τ) _).Ensures relation
        fun _ => True)
    (updates : context.verb ≠ .store → ∀ changes,
      (Store.update context.resource entity.key changes : Action (Memory × τ) _).Ensures relation
        fun _ => True)
    (deletes : context.verb = .destroy →
      (Store.delete context.resource entity.key : Action (Memory × τ) _).Ensures relation
        fun _ => True) :
    (endpoint.mutate context target entity).Ensures relation fun _ => True := by
  unfold mutate
  cases verb : context.verb with
  | store => exact inserts verb _
  | update => exact .bind (updates (by simp [verb]) _) fun _ _ => .pure trivial
  | destroy =>
      dsimp only
      split
      · unfold Store.softDelete
        split
        · exact .bind (updates (by simp [verb]) _) fun _ _ => .pure trivial
        · exact .throw _
      · exact .bind (deletes verb) fun _ _ => .pure trivial
  | restore =>
      dsimp only
      unfold Store.restore
      split
      · exact .bind (updates (by simp [verb]) _) fun _ _ => .pure trivial
      · exact .throw _

/-- The steps of an endpoint keep to the relations when its binding and its writes do. -/
theorem steps_respects {kept : Entity → Entity → Prop} [Std.Refl kept] [IsTrans Entity kept]
    {endpoint : Endpoint (Memory × τ)} (respects : endpoint.binding.Respects relation kept)
    {writable : BatchTarget → Prop} {context : BatchContext}
    (writes : ∀ done target entity, writable target → kept target.entity entity →
      (endpoint.mutate { context with entities := done } target entity).Ensures relation
        fun _ => True)
    (filled : ∀ (target : BatchTarget) entity, kept target.entity entity →
      kept target.entity (target.filled context.verb entity)) (verb : BatchVerb) :
    (endpoint.steps (endpoint.binding.hooksFor verb)).Respects relation kept writable
      context where
  atBatch point done := by
    refine proceeding_ensures ?_
    exact .bind (Hooks.atBatch_ensures (respects.hooks verb) point _) fun _ _ => .pure trivial
  authorize _ entity := Authorizer.checkEntity_ensures respects.authorizer _ entity _
  atEntity point done entity :=
    proceeding_ensures (Hooks.atEntity_ensures (respects.hooks verb) point _ entity)
  write := writes
  readBack done _ key := by
    refine (endpoint.refetch_ensures _ key).relax ?_
    rintro before after rfl
    exact Std.Refl.refl before
  filled := filled

end ResourceServer.Endpoint
