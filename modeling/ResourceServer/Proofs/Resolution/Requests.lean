import ResourceServer.Proofs.Filter.Grammar
import ResourceServer.Proofs.Resolution.Specification

/-!
# What requests are compiled to

Whenever the parameters and the relations of a request are accepted, the specification that they
are compiled to can be put together, and it is prepared.  Columns that relations join by are read
even when the request asks for other ones only, and counts that rows are only sorted by are taken.
-/

namespace ResourceServer

variable {registry : Registry} {resource : Resource}

/-! ## Reading parameters -/

theorem readColumns_columns {parameters : Record} {columns : Option (List String)}
    (done : readColumns resource parameters = .ok columns) :
    ∀ names ∈ columns, names ⊆ resource.columns := by
  obtain ⟨fields, _, done⟩ := bind_eq_ok.mp done
  split at done
  · cases done
  · rename_i noneUnknown
    cases done
    intro names isNames name isName
    split at isNames
    · cases isNames
    · cases isNames
      have isKnown := List.find?_eq_none.mp noneUnknown name isName
      simpa using isKnown

theorem readAggregates_declared {parameters : Record} {aggregates : List AggregateRequest}
    (done : readAggregates resource parameters = .ok aggregates) :
    ∀ aggregate ∈ aggregates, aggregate.relation ∈ resource.aggregates := by
  obtain ⟨relations, _, done⟩ := bind_eq_ok.mp done
  split at done
  · cases done
  · rename_i noneUnknown
    cases done
    intro aggregate isAggregate
    obtain ⟨name, isName, rfl⟩ := List.mem_map.mp isAggregate
    have isKnown := List.find?_eq_none.mp noneUnknown name (mem_distinctNames.mp isName)
    simpa using isKnown

/-- Counts that are taken were asked for, or are declared by the resource. -/
theorem QueryParameters.mem_effectiveAggregates {parameters : QueryParameters}
    {aggregate : AggregateRequest} (member : aggregate ∈ parameters.effectiveAggregates resource) :
    aggregate ∈ parameters.aggregates ∨ aggregate.relation ∈ resource.aggregates := by
  unfold effectiveAggregates at member
  revert member
  generalize parameters.aggregates = taken
  generalize resource.aggregates = names
  intro member
  induction names generalizing taken with
  | nil => exact .inl member
  | cons name rest induction =>
      rw [List.foldl_cons] at member
      cases induction _ member with
      | inr isDeclared => exact .inr (List.mem_cons_of_mem name isDeclared)
      | inl isTaken =>
          dsimp only at isTaken
          split at isTaken
          · exact .inl isTaken
          · split at isTaken
            · cases List.mem_append.mp isTaken with
              | inl isTaken => exact .inl isTaken
              | inr isNew =>
                  rw [List.mem_singleton.mp isNew]
                  exact .inr List.mem_cons_self
            · exact .inl isTaken

/-- The columns and the counts that a request asks for are those of the resource. -/
theorem QueryParameters.ofRequest_names {settings : Settings} {given : Record}
    {parameters : QueryParameters} (done : ofRequest settings resource given = .ok parameters) :
    (∀ names ∈ parameters.columns, names ⊆ resource.columns) ∧
      ∀ aggregate ∈ parameters.aggregates, aggregate.relation ∈ resource.aggregates := by
  obtain ⟨filters, _, done⟩ := bind_eq_ok.mp done
  obtain ⟨searchTerm, _, done⟩ := bind_eq_ok.mp done
  obtain ⟨sorts, _, done⟩ := bind_eq_ok.mp done
  obtain ⟨pagination, _, done⟩ := bind_eq_ok.mp done
  obtain ⟨columns, selected, done⟩ := bind_eq_ok.mp done
  obtain ⟨aggregates, counted, done⟩ := bind_eq_ok.mp done
  obtain ⟨trashed, _, done⟩ := bind_eq_ok.mp done
  cases done
  exact ⟨readColumns_columns selected, readAggregates_declared counted⟩

/-! ## Selected columns -/

theorem Relation.ownerField_eq (relation : Relation) (owner target : Resource) :
    relation.ownerField owner target = relation.ownerColumn?.getD owner.keyName := by
  unfold ownerField joiningFields ownerColumn?
  cases relation.kind <;> rfl

/-- The columns to read can be told when every request starts with a relation.  They are the key,
those that these relations join by, and the wanted ones. -/
theorem Resource.exists_projection {includes : List RelationRequest} (columns : List String)
    (declared : ∀ request ∈ includes, ∃ relation,
      resource.relation (RelationStep.head request.path) = .ok relation) :
    ∃ selected, resource.projection columns includes = .ok selected ∧
      ∀ name, name ∈ selected ↔ name = resource.keyName ∨
        (∃ request ∈ includes, ∃ relation,
          resource.relation (RelationStep.head request.path) = .ok relation ∧
            relation.ownerColumn? = some name) ∨ name ∈ columns := by
  have named : ∀ name ∈ distinctNames (includes.map fun request => request.segments.headD ""),
      ∃ relation, resource.relation name = .ok relation := by
    intro name isName
    obtain ⟨request, isRequest, rfl⟩ := List.mem_map.mp (mem_distinctNames.mp isName)
    exact declared request isRequest
  obtain ⟨relations, found⟩ := exists_forall₂ named
  refine ⟨distinctNames (resource.keyName :: relations.filterMap Relation.ownerColumn? ++ columns),
    ?_, ?_⟩
  · unfold projection
    dsimp only
    rw [mapM_of_forall₂ found]
    rfl
  · intro name
    rw [mem_distinctNames, List.cons_append, List.mem_cons, List.mem_append, List.mem_filterMap]
    refine or_congr_right (or_congr_left ?_)
    constructor
    · rintro ⟨relation, isRelation, isColumn⟩
      obtain ⟨head, isHead, isFound⟩ := exists_of_mem_right found isRelation
      obtain ⟨request, isRequest, rfl⟩ := List.mem_map.mp (mem_distinctNames.mp isHead)
      exact ⟨request, isRequest, relation, isFound, isColumn⟩
    · rintro ⟨request, isRequest, relation, isFound, isColumn⟩
      have isHead : RelationStep.head request.path ∈
          distinctNames (includes.map fun request => request.segments.headD "") :=
        mem_distinctNames.mpr (List.mem_map.mpr ⟨request, isRequest, rfl⟩)
      obtain ⟨other, isRelation, isOther⟩ := exists_of_mem_left found isHead
      obtain rfl : relation = other := Except.ok.inj (isFound.symm.trans isOther)
      exact ⟨relation, isRelation, isColumn⟩

/-! ## Specifications -/

namespace QuerySpec

variable {parameters : QueryParameters} {requests : List RelationRequest}
  {scopes : List Filter.Node}

/-- The columns to read are worked out for the relations to load; the rest is put together. -/
theorem ofParameters_eq (resource : Resource) (parameters : QueryParameters)
    (requests : List RelationRequest) (scopes : List Filter.Node) :
    ofParameters resource parameters requests scopes =
      (match parameters.columns with
        | none => Except.ok none
        | some columns => (resource.projection columns (mergeRequests requests)).map some).map
        fun (selected : Option (List String)) =>
          { resource
            wheres := scopes ++ parameters.filters.toList
            searchTerm := parameters.searchTerm
            includes := mergeRequests requests
            sorts := parameters.sorts
            aggregates := parameters.effectiveAggregates resource
            trashed := parameters.trashed
            columns := selected.map distinctNames } := by
  unfold ofParameters
  simp only [wheres_foldl_whereNode]
  cases parameters.columns with
  | none => rfl
  | some columns =>
      change (resource.projection columns (mergeRequests requests) >>= _) =
        ((resource.projection columns (mergeRequests requests)).map some).map _
      cases resource.projection columns (mergeRequests requests) <;> rfl

/-- The columns that are read are columns of the resource, and those that its relations join by are
among them. -/
structure Selects (registry : Registry) (resource : Resource) (requests : List RelationRequest)
    (selected : List String) : Prop where
  columns : selected ⊆ resource.columns
  joined : ∀ request ∈ requests, ∀ relation target,
    resource.relation (RelationStep.head request.path) = .ok relation →
      registry.resource relation.target = .ok target →
        relation.ownerField resource target ∈ selected

theorem selects_all (consistent : registry.Consistent) (registered : resource ∈ registry.resources)
    (requests : List RelationRequest) : Selects registry resource requests resource.columns where
  columns := List.Subset.refl _
  joined _ _ _ _ declared known :=
    (consistent.joining registered (Resource.mem_of_relation declared) known).1

/-- When some columns are wanted, those to read can be told. -/
theorem exists_selects (consistent : registry.Consistent)
    (registered : resource ∈ registry.resources) {visible : Visibility} {columns : List String}
    (leads : ∀ request ∈ requests, request.LeadsVisible registry visible resource)
    (wanted : columns ⊆ resource.columns) :
    ∃ selected, resource.projection columns requests = .ok selected ∧
      Selects registry resource requests
        (distinctNames (resource.keyName :: distinctNames selected)) := by
  have declared : ∀ request ∈ requests, ∃ relation,
      resource.relation (RelationStep.head request.path) = .ok relation := by
    intro request isRequest
    obtain ⟨relation, _, isRelation, _⟩ := (leads request isRequest).first
    exact ⟨relation, isRelation⟩
  obtain ⟨selected, projected, mem_selected⟩ := Resource.exists_projection columns declared
  refine ⟨selected, projected, ?_, ?_⟩
  · intro name isName
    rw [mem_distinctNames, List.mem_cons, mem_distinctNames, mem_selected] at isName
    have isKey := (Registry.checked consistent.valid registered).key
    rcases isName with rfl | rfl | ⟨request, isRequest, relation, isRelation, isColumn⟩ | isWanted
    · exact isKey
    · exact isKey
    · obtain ⟨again, target, isAgain, known, _⟩ := (leads request isRequest).first
      obtain rfl : relation = again := Except.ok.inj (isRelation.symm.trans isAgain)
      have joined := consistent.joining registered (Resource.mem_of_relation isRelation) known
      rw [Relation.ownerField_eq, isColumn] at joined
      exact joined.1
    · exact wanted isWanted
  · intro request isRequest relation target isRelation _
    rw [mem_distinctNames, List.mem_cons, mem_distinctNames, mem_selected,
      Relation.ownerField_eq]
    cases isColumn : relation.ownerColumn? with
    | none => exact .inl rfl
    | some column => exact .inr (.inr (.inl ⟨request, isRequest, relation, isRelation, isColumn⟩))

theorem Prepared.whereIn {spec narrowed : QuerySpec} (consistent : registry.Consistent)
    (prepared : spec.Prepared registry) {keys : List Value}
    (done : spec.whereIn spec.resource.keyName keys = .ok narrowed) :
    narrowed.Prepared registry := by
  obtain ⟨leaf, made, done⟩ := bind_eq_ok.mp done
  cases done
  refine { prepared with names := { prepared.names with wheres := ?_ } }
  intro node member field isField
  cases List.mem_append.mp member with
  | inl isGiven => exact prepared.names.wheres node isGiven field isField
  | inr isNew =>
      rw [List.mem_singleton.mp isNew, Filter.Node.fields, List.mem_singleton,
        Filter.Leaf.make_field made] at isField
      rw [isField]
      exact consistent.exposes.key spec.resource prepared.registered

theorem exists_whereIn (spec : QuerySpec) (field : String) {keys : List Value}
    (scalars : ∀ key ∈ keys, Filter.isScalar key = true) :
    ∃ narrowed, spec.whereIn field keys = .ok narrowed := by
  have made : Filter.Leaf.make field .isIn (.list keys) =
      .ok ⟨field, .isIn, .list keys, .both⟩ :=
    Filter.Leaf.make_eq_ok.mpr ⟨⟨keys, rfl, scalars⟩, rfl⟩
  refine ⟨spec.whereNode (.leaf ⟨field, .isIn, .list keys, .both⟩), ?_⟩
  rw [QuerySpec.whereIn, made]
  rfl

end QuerySpec

/-! ## Requests -/

section Endpoint

variable {σ : Type} {endpoint : Endpoint σ} {given : Record} {request : Request}
  {parameters : QueryParameters} {requests : List RelationRequest}

/-- What is accepted can be compiled, and what it is compiled to is prepared. -/
theorem Endpoint.exists_prepared (consistent : endpoint.registry.Consistent)
    (registered : endpoint.resource ∈ endpoint.registry.resources)
    (scopes : ∀ scope ∈ endpoint.scopes, scope.fields ⊆ endpoint.resource.columns)
    (read : endpoint.readParameters given = .ok parameters)
    (asked : endpoint.readRelations request = .ok requests)
    (ends : ∀ request ∈ requests, ¬ request.EndsInDot) :
    ∃ spec, QuerySpec.ofParameters endpoint.resource parameters requests endpoint.scopes =
      .ok spec ∧ spec.resource = endpoint.resource ∧ spec.Prepared endpoint.registry := by
  have scopesHold : ∀ scope ∈ endpoint.scopes, ∀ field ∈ scope.fields,
      endpoint.registry.Holds endpoint.resource.name field :=
    fun scope isScope field isField =>
      (consistent.holds_iff registered).mpr (scopes scope isScope isField)
  have leads : ∀ request ∈ mergeRequests requests,
      request.LeadsVisible endpoint.registry endpoint.registry.Holds endpoint.resource :=
    fun request member => RelationRequest.ofRequest_leadVisible consistent.exposes asked request
      (mem_mergeRequests member)
  obtain ⟨wanted, counted⟩ := QueryParameters.ofRequest_names read
  obtain ⟨spec, built, isWhole, selects⟩ : ∃ spec,
      QuerySpec.ofParameters endpoint.resource parameters requests endpoint.scopes = .ok spec ∧
        spec.aggregates = parameters.effectiveAggregates endpoint.resource ∧
          QuerySpec.Selects endpoint.registry endpoint.resource (mergeRequests requests)
            spec.selectedColumns := by
    rw [QuerySpec.ofParameters_eq]
    cases columns : parameters.columns with
    | none => exact ⟨_, rfl, rfl, QuerySpec.selects_all consistent registered _⟩
    | some names =>
        obtain ⟨selected, projected, selects⟩ :=
          QuerySpec.exists_selects consistent registered leads (wanted names columns)
        simp only [projected]
        exact ⟨_, rfl, rfl, selects⟩
  obtain ⟨isResource, names, _⟩ :=
    Endpoint.spec_visible consistent.exposes registered scopesHold read asked built
  have includes : spec.includes = mergeRequests requests := by
    obtain ⟨columns, rfl⟩ := QuerySpec.ofParameters_eq_ok built
    rfl
  rw [← isResource, ← includes] at selects leads
  rw [← isResource] at registered
  refine ⟨spec, built, isResource, registered, names, selects.columns, ?_, leads, ?_,
    selects.joined⟩
  · intro aggregate member
    rw [isWhole] at member
    rw [isResource]
    cases QueryParameters.mem_effectiveAggregates member with
    | inl isAsked => exact counted aggregate isAsked
    | inr isDeclared => exact isDeclared
  · intro request member
    rw [includes] at member
    exact ends request (mem_mergeRequests member)

end Endpoint

end ResourceServer
