import Mathlib.Data.List.Pairwise
import Mathlib.Data.Set.Defs
import ResourceServer.Proofs.Guard
import ResourceServer.Proofs.Memory.Reading
import ResourceServer.Proofs.Query.Merging
import ResourceServer.Proofs.Resolution.Specification
import ResourceServer.Proofs.Visibility.Requests

/-!
# Relations that entities carry

The loader cuts the paths of its requests at their first dots.  Each relation that some path
starts with is loaded once, and the rest of these paths is handed on to what it leads to.  So the
loaded relations are the segments of the requested paths, at every depth, and the guard of answers,
which reads the same paths as a whole, has nothing to take out.
-/

namespace ResourceServer

/-! ## Paths -/

/-- The paths that some requests ask for, as the relation names along them. -/
def pathsOf (requests : List RelationRequest) : Set (List String) :=
  {path | ∃ request ∈ requests, request.segments = path}

/-- What paths ask for below a relation that they start with. -/
def pathsBelow (name : String) (paths : Set (List String)) : Set (List String) :=
  {rest | rest ≠ [] ∧ name :: rest ∈ paths}

theorem pathsOf_mergeRequests (requests : List RelationRequest) :
    pathsOf (mergeRequests requests) = pathsOf requests := by
  ext path
  constructor
  · rintro ⟨request, member, isPath⟩
    exact ⟨request, mem_mergeRequests member, isPath⟩
  · rintro ⟨request, member, isPath⟩
    obtain ⟨kept, isKept, samePath⟩ :=
      List.mem_map.mp (path_mem_mergeRequests.mpr (List.mem_map_of_mem member))
    exact ⟨kept, isKept, by rw [RelationRequest.segments, samePath]; exact isPath⟩

theorem mergeRequests_sorted (requests : List RelationRequest) :
    (mergeRequests requests).Pairwise fun earlier later => earlier.path ≤ later.path := by
  unfold mergeRequests
  refine (List.pairwise_mergeSort ?_ ?_ _).imp of_decide_eq_true
  · intro first second third
    rw [decide_eq_true_iff, decide_eq_true_iff, decide_eq_true_iff]
    exact String.le_trans
  · intro first second
    rw [Bool.or_eq_true, decide_eq_true_iff, decide_eq_true_iff]
    exact String.le_total first.path second.path

theorem dotted_not_le (path : String) : ¬ path ++ "." ≤ path := by
  intro before
  have after : path ≤ path ++ "." := by
    have lists := @List.le_append_left Char _ _ path.toList ".".toList
    rw [← String.toList_append] at lists
    exact lists
  have same := congrArg String.length (String.le_antisymm before after)
  rw [String.length_append] at same
  change path.length + 1 = path.length at same
  omega

/-! ## Addressed relations -/

/-- Every relation of the registry is stored under its own name. -/
def Registry.KeepsNames (registry : Registry) : Prop :=
  ∀ owner ∈ registry.resources, ∀ entry ∈ owner.relations, entry.2.name = entry.1

instance (registry : Registry) : Decidable registry.KeepsNames :=
  inferInstanceAs (Decidable (∀ owner ∈ registry.resources, ∀ entry ∈ owner.relations,
    entry.2.name = entry.1))

/-- Requests in the order of their paths, which lead along declared relations.  A path that ends in
a dot is among them only where it cannot be taken for the name of a relation. -/
structure Registry.Addresses (registry : Registry) (owner : Resource)
    (requests : List RelationRequest) : Prop where
  leads : ∀ request ∈ requests, request.LeadsVisible registry (fun _ _ => True) owner
  sorted : requests.Pairwise fun earlier later => earlier.path ≤ later.path
  apart : ∀ request ∈ requests, request.EndsInDot → registry.TellsPathsApart

namespace Registry.Addresses

variable {registry : Registry} {owner target : Resource} {requests : List RelationRequest}
variable {relation : Relation} {name : String}

theorem ofRequests {settings : Settings} {request : Request}
    (asked : RelationRequest.ofRequest registry settings owner request = .ok requests)
    (apart : ∀ asked ∈ requests, asked.EndsInDot → registry.TellsPathsApart) :
    registry.Addresses owner (mergeRequests requests) where
  leads asked member := RelationRequest.ofRequest_leadVisible ⟨by simp, by simp, by simp, by simp⟩
    ‹_› asked (mem_mergeRequests member)
  sorted := mergeRequests_sorted requests
  apart asked member := apart asked (mem_mergeRequests member)

/-- A relation that is loaded has the first segment of its paths for its path. -/
theorem directRequest_path (addresses : registry.Addresses owner requests)
    (registered : owner ∈ registry.resources)
    (declared : owner.relation (RelationStep.directRequest name requests).path = .ok relation)
    (known : registry.resource relation.target = .ok target) :
    (RelationStep.directRequest name requests).path = name := by
  by_cases dotted : ∃ request ∈ requests, request.EndsInDot
  · obtain ⟨request, member, ends⟩ := dotted
    exact (directRequest_leads (addresses.apart request member ends) registered addresses.leads
      declared known).1
  · have ends : ∀ request ∈ requests, RelationStep.head request.path = name →
        ¬ request.EndsInDot :=
      fun request member _ ends => dotted ⟨request, member, ends⟩
    rcases RelationStep.directRequest_cases ends with isPlain | ⟨_, isName, _⟩
    · rw [isPlain]
    · exact isName

/-- What is asked for below a relation that is loaded is handed on. -/
theorem pathsOf_belowRequests (addresses : registry.Addresses owner requests)
    (isDirect : (RelationStep.directRequest name requests).path = name) :
    pathsOf (RelationStep.belowRequests name requests) = pathsBelow name (pathsOf requests) := by
  ext rest
  constructor
  · rintro ⟨below, isBelow, rfl⟩
    obtain ⟨request, isAbove, rfl⟩ := List.mem_map.mp isBelow
    obtain ⟨member, starts⟩ := List.mem_filter.mp isAbove
    rw [Bool.and_eq_true, beq_iff_eq, Bool.not_eq_true'] at starts
    obtain ⟨rfl, someTail⟩ := starts
    refine ⟨pathSegments_ne_nil _, request, member, ?_⟩
    rw [RelationRequest.segments, RelationRequest.segments, RelationStep.pathSegments_tail someTail]
    exact pathSegments_eq_cons request.path
  · rintro ⟨goesOn, request, member, isPath⟩
    have cut := isPath.symm.trans (pathSegments_eq_cons request.path)
    rw [List.cons.injEq] at cut
    obtain ⟨rfl, isRest⟩ := cut
    cases noTail : (RelationStep.tail request.path).isEmpty with
    | false =>
        refine ⟨{ request with path := RelationStep.tail request.path }, ?_, ?_⟩
        · refine List.mem_map.mpr ⟨request, List.mem_filter.mpr ⟨member, ?_⟩, rfl⟩
          rw [beq_self_eq_true, noTail]
          rfl
        · exact (RelationStep.pathSegments_tail noTail).trans isRest.symm
    | true =>
        cases pathSegments_of_tail_empty noTail with
        | inl single =>
            have isSingle : request.segments = [request.path] := single
            rw [isPath, List.cons.injEq] at isSingle
            exact absurd isSingle.2 goesOn
        | inr dotted =>
            -- Such a path stands behind the relation itself, but that one is the last.
            obtain ⟨first, double, isDotted⟩ := dotted
            have isHead : RelationStep.head request.path = first := by
              rw [RelationStep.head, double]
              rfl
            have candidate : request ∈ requests.filter fun other =>
                RelationStep.head other.path == RelationStep.head request.path &&
                  (RelationStep.tail other.path).isEmpty :=
              List.mem_filter.mpr ⟨member, by rw [beq_self_eq_true, noTail]; rfl⟩
            have behind := (addresses.sorted.filter _).rel_getLast_of_rel_getLast_getLast candidate
              (String.le_refl _)
            rw [RelationStep.directRequest, List.getLast?_eq_some_getLast (List.ne_nil_of_mem candidate),
              Option.getD_some] at isDirect
            rw [isDirect, isHead, isDotted] at behind
            exact absurd behind (dotted_not_le first)

/-- Requests below a relation lead on from its target. -/
theorem below {step : RelationStep} (addresses : registry.Addresses owner requests)
    (member : step ∈ RelationStep.ofRequests requests)
    (declared : owner.relation step.name = .ok relation)
    (known : registry.resource relation.target = .ok target) :
    registry.Addresses target (mergeRequests step.below) := by
  obtain ⟨name, _, rfl⟩ := List.mem_map.mp member
  have leads := belowRequests_leadVisible addresses.leads declared known
  refine ⟨fun request isBelow => leads request (mem_mergeRequests isBelow),
    mergeRequests_sorted _, fun below isBelow ends => ?_⟩
  obtain ⟨request, isAbove, rfl⟩ := List.mem_map.mp (mem_mergeRequests isBelow)
  obtain ⟨member, starts⟩ := List.mem_filter.mp isAbove
  rw [Bool.and_eq_true, Bool.not_eq_true'] at starts
  exact addresses.apart request member (RelationRequest.endsInDot_of_tail starts.2 ends)

end Registry.Addresses

/-! ## Loading -/

/-- The entities that a relation leads to. -/
def Related.entities : Related → List Entity
  | .absent => []
  | .single entity => [entity]
  | .many entities => entities

/-- The loaded relations of an entity are those that some paths start with, each of them once, and
what they lead to carries what the paths ask for below them. -/
inductive Entity.Carries : Set (List String) → Entity → Prop
  | intro {paths : Set (List String)} {entity : Entity}
      (once : (entity.relations.map Prod.fst).Nodup)
      (first : ∀ name, name ∈ entity.relations.map Prod.fst ↔
        ∃ path ∈ paths, path.head? = some name)
      (below : ∀ entry ∈ entity.relations, ∀ related ∈ entry.2.entities,
        Entity.Carries (pathsBelow entry.1 paths) related) :
      Entity.Carries paths entity

/-- The relation of a step stands under its name, and what it leads to carries what is asked for
below the step. -/
structure RelationStep.Attached (step : RelationStep) (entry : String × Related) : Prop where
  isDirect : step.request.path = step.name
  isNamed : entry.1 = step.name
  below : ∀ related ∈ entry.2.entities, related.Carries (pathsOf step.below)

/-- Some steps have attached their relations to every entity, in their order and nothing else. -/
def AllAttached (steps : List RelationStep) (entities : List Entity) : Prop :=
  ∀ entity ∈ entities, List.Forall₂ RelationStep.Attached steps entity.relations

theorem RelationStep.map_name_ofRequests (requests : List RelationRequest) :
    (ofRequests requests).map name = distinctNames (requests.map fun request => head request.path) := by
  rw [ofRequests, List.map_map]
  exact List.map_id _

theorem Entity.relations_attach {entity : Entity} {name : String} {related : Related}
    (fresh : name ∉ entity.relations.map Prod.fst) :
    (entity.attach name related).relations = entity.relations ++ [(name, related)] := by
  cases entity with
  | mk resource key attributes relations created =>
      change (if relations.any (·.1 == name) then _ else _) = _
      refine if_neg fun known => fresh ?_
      obtain ⟨entry, member, same⟩ := List.any_eq_true.mp known
      rw [beq_iff_eq] at same
      exact List.mem_map.mpr ⟨entry, member, same⟩

/-- A relation leads to none but its matches. -/
theorem Relation.entities_related (relation : Relation) (window : Option RelationWindow)
    (found : List Entity) : (relation.related window found).entities ⊆ found := by
  unfold Relation.related
  split
  · split
    · intro entity member
      exact List.mem_of_mem_drop (List.mem_of_mem_take member)
    · exact List.Subset.refl found
  · split
    · intro entity member
      rw [Related.entities, List.mem_singleton] at member
      rw [member]
      exact List.mem_cons_self
    · exact List.nil_subset _

theorem matchesOf_subset (field : String) (value : Value) (related : List Entity) :
    matchesOf field value related ⊆ related := by
  unfold matchesOf
  split
  · exact List.nil_subset _
  · exact List.filter_subset_self _

namespace Store

variable {σ : Type} {registry : Registry} {owner : Resource} {requests : List RelationRequest}

/-- An entity to which all steps have attached their relations carries the paths of the requests. -/
theorem carries_of_attached (addresses : registry.Addresses owner requests) {entity : Entity}
    (each : List.Forall₂ RelationStep.Attached (RelationStep.ofRequests requests)
      entity.relations) : entity.Carries (pathsOf requests) := by
  have names := map_eq_of_forall₂ each fun step entry attached => attached.isNamed.symm
  rw [RelationStep.map_name_ofRequests] at names
  refine .intro ?_ ?_ ?_
  · rw [← names]
    exact nodup_distinctNames _
  · intro name
    rw [← names, mem_distinctNames, List.mem_map]
    constructor
    · rintro ⟨request, member, rfl⟩
      refine ⟨request.segments, ⟨request, member, rfl⟩, ?_⟩
      rw [RelationRequest.segments, pathSegments_eq_cons]
      rfl
    · rintro ⟨_, ⟨request, member, rfl⟩, isHead⟩
      rw [RelationRequest.segments, pathSegments_eq_cons, List.head?_cons] at isHead
      exact ⟨request, member, Option.some.inj isHead⟩
  · intro entry isEntry related isRelated
    obtain ⟨step, member, attached⟩ := exists_of_mem_right each isEntry
    have carries := attached.below related isRelated
    have isDirect := attached.isDirect
    rw [attached.isNamed]
    obtain ⟨name, _, rfl⟩ := List.mem_map.mp member
    rw [← addresses.pathsOf_belowRequests isDirect]
    exact carries

/-- Loading through a step attaches its relation to every entity. -/
theorem loadRelation_attaches {getRelated : QuerySpec → Action σ (List Entity)}
    (named : registry.KeepsNames) (registered : owner ∈ registry.resources)
    (addresses : registry.Addresses owner requests) {step : RelationStep}
    (member : step ∈ RelationStep.ofRequests requests) {earlier : List RelationStep}
    (fresh : step.name ∉ earlier.map RelationStep.name)
    (carries : ∀ query, query.resource ∈ registry.resources →
      query.includes = mergeRequests step.below →
        registry.Addresses query.resource query.includes →
          (getRelated query).Ensures (fun _ _ => True) fun found =>
            ∀ entity ∈ found, entity.Carries (pathsOf query.includes))
    {entities : List Entity} (attached : AllAttached earlier entities) :
    (loadRelation getRelated registry owner entities step).Ensures (fun _ _ => True)
      (AllAttached (earlier ++ [step])) := by
  refine .bind (.compute _) fun relation declared => ?_
  refine .bind (.compute _) fun target known => ?_
  have isDirect : step.request.path = step.name := by
    obtain ⟨name, _, rfl⟩ := List.mem_map.mp member
    exact addresses.directRequest_path registered declared known
  have isNamed : relation.name = step.name := by
    rw [← isDirect]
    exact named owner registered _ (Resource.mem_of_relation declared)
  have attaches : ∀ ownerField targetField, ∀ related : List Entity,
      (∀ entity ∈ related, entity.Carries (pathsOf step.below)) →
      (pure (entities.map fun entity => entity.attach relation.name
        (relation.related step.request.window
          (matchesOf targetField (entity.get ownerField) related))) :
            Action σ (List Entity)).Ensures (fun _ _ => True)
        (AllAttached (earlier ++ [step])) := by
    intro ownerField targetField related carries
    refine .pure fun loaded isLoaded => ?_
    obtain ⟨entity, isEntity, rfl⟩ := List.mem_map.mp isLoaded
    have each := attached entity isEntity
    have isFresh : relation.name ∉ entity.relations.map Prod.fst := by
      rw [isNamed, ← map_eq_of_forall₂ each fun step entry attached => attached.isNamed.symm]
      exact fresh
    rw [Entity.relations_attach isFresh]
    refine List.rel_append each (.cons ⟨isDirect, isNamed, fun found isFound => ?_⟩ .nil)
    exact carries found (matchesOf_subset _ _ _ (relation.entities_related _ _ isFound))
  dsimp only
  split
  · exact attaches _ _ [] (List.forall_mem_nil _)
  · refine .bind (.compute _) fun query isQuery => ?_
    have isResource := relatedQuery_resource isQuery
    have includes := relatedQuery_includes isQuery
    have below := addresses.below member (isDirect ▸ declared) known
    refine .bind (carries query ?_ includes ?_) fun related carries => attaches _ _ related ?_
    · rw [isResource]
      exact Registry.mem_of_resource known
    · rw [isResource, includes]
      exact below
    · rw [includes, pathsOf_mergeRequests] at carries
      exact carries

variable [Store σ]

/-- Every entity that is loaded carries the paths of its specification. -/
theorem hydrateTo_carries (named : registry.KeepsNames) {depth : Nat} {spec : QuerySpec}
    (enough : includeDepth spec ≤ depth) (registered : spec.resource ∈ registry.resources)
    (addresses : registry.Addresses spec.resource spec.includes) (rows : List Record) :
    (hydrateTo registry depth spec rows : Action σ _).Ensures (fun _ _ => True) fun loaded =>
      ∀ entity ∈ loaded, entity.Carries (pathsOf spec.includes) := by
  induction depth generalizing spec rows with
  | zero =>
      rw [hydrateTo]
      refine .ofExcept fun entities made entity isEntity => ?_
      obtain ⟨_, rfl⟩ := entitiesOf_eq_ok.mp made
      obtain ⟨row, _, rfl⟩ := List.mem_map.mp isEntity
      refine carries_of_attached addresses ?_
      rw [ofRequests_eq_nil enough]
      exact .nil
  | succ depth induction =>
      rw [hydrateTo]
      refine .bind (.compute _) fun entities made => ?_
      obtain ⟨_, rfl⟩ := entitiesOf_eq_ok.mp made
      split
      · rename_i none
        rw [List.isEmpty_iff] at none
        rw [none]
        exact .pure (List.forall_mem_nil _)
      · have none : AllAttached [] (rows.map (entityOf spec.resource)) := by
          intro entity isEntity
          obtain ⟨row, _, rfl⟩ := List.mem_map.mp isEntity
          exact .nil
        refine Action.Ensures.weaken (.foldlM_done ?_ none) fun loaded attached entity isEntity =>
          carries_of_attached addresses (attached entity isEntity)
        · intro done step rest split loaded attached
          have member : step ∈ RelationStep.ofRequests spec.includes := by
            rw [split]
            exact List.mem_append_right _ List.mem_cons_self
          refine loadRelation_attaches named registered addresses member ?_ ?_ attached
          · have names := nodup_distinctNames
              (spec.includes.map fun request => RelationStep.head request.path)
            rw [← RelationStep.map_name_ofRequests, split, List.map_append, List.map_cons,
              List.nodup_middle, List.nodup_cons, List.mem_append, not_or] at names
            exact names.1.1
          · intro query isRegistered includes below
            refine .bind (.always _) fun rows _ => ?_
            exact induction (includeDepth_below member enough includes) isRegistered below rows

end Store

end ResourceServer
