import Mathlib.Data.List.Nodup
import ResourceServer.Proofs.Sql.Correspondence
import ResourceServer.Proofs.Visibility.Requests

/-!
# What specifications name

A store looks up whatever a specification names: columns in filters, searches, sort orders and
selections, relations that are to be loaded or counted, and the columns that these join by.  A
specification is executable when all of that is there.  What a request may name is checked against
the lists of a resource, these are checked against its columns when the registry is finalized, and
the conditions on related entities are checked against the resource at the end of their path.  So
an executable specification leads to executable ones along every relation.
-/

namespace ResourceServer

/-! ## Registries -/

/-- A field of the resource of a name is one of its columns. -/
def Registry.Holds (registry : Registry) : Visibility := fun name field =>
  ∀ resource ∈ registry.resources, resource.name = name → field ∈ resource.columns

/-- The resource whose key a relation refers to, or another column that takes its place. -/
def Relation.referent (relation : Relation) (owner target : Resource) : Resource :=
  match relation.kind with
  | .belongsTo => target
  | _ => owner

/-- A finalized registry of different names, in which every given local key is a column of the
resource that it refers to. -/
structure Registry.Consistent (registry : Registry) : Prop where
  distinct : registry.names.Nodup
  valid : registry.validate = .ok ()
  localKeys : ∀ owner ∈ registry.resources, ∀ entry ∈ owner.relations, ∀ target,
    registry.resource entry.2.target = .ok target →
      ∀ column ∈ entry.2.givenLocalKey?, column ∈ (entry.2.referent owner target).columns

/-- What was checked of a resource when its registry was finalized. -/
structure Registry.Checked (registry : Registry) (resource : Resource) : Prop where
  key : resource.keyName ∈ resource.columns
  deletedAt : resource.softDeletes = true → resource.deletedAtColumn ∈ resource.columns
  listed : ∀ field ∈ resource.filterable ++ resource.sortable ++ resource.searchable,
    field ∈ resource.columns
  foreignKeys : ∀ entry ∈ resource.relations, ∃ target,
    registry.resource entry.2.target = .ok target ∧
      (entry.2.kind = .belongsTo → entry.2.foreignKey ∈ resource.columns) ∧
      (entry.2.kind ≠ .belongsTo → entry.2.foreignKey ∈ target.columns)
  aggregates : ∀ name ∈ resource.aggregates, ∃ relation, resource.relation name = .ok relation

namespace Registry

variable {registry : Registry} {resource : Resource}

theorem listed_of_unknownFieldsFault (sound : unknownFieldsFault? resource = none) :
    ∀ field ∈ resource.filterable ++ resource.sortable ++ resource.searchable,
      field ∈ resource.columns := by
  have known : ∀ usage fields, (usage, fields) ∈ [(Usage.filterable, resource.filterable),
      (.sortable, resource.sortable), (.searchable, resource.searchable),
      (.fillable, resource.fillable.getD [])] → ∀ field ∈ fields, field ∈ resource.columns := by
    intro usage fields isList field isField
    have noFault := List.findSome?_eq_none_iff.mp sound (usage, fields) isList
    dsimp only at noFault
    split at noFault
    · rename_i noneUnknown
      have isKnown := List.filter_eq_nil_iff.mp noneUnknown field isField
      simpa using isKnown
    · cases noFault
  rw [List.forall_mem_append, List.forall_mem_append]
  refine ⟨⟨?_, ?_⟩, ?_⟩
  · exact known .filterable _ (by simp)
  · exact known .sortable _ (by simp)
  · exact known .searchable _ (by simp)

theorem foreignKey_of_relationFault {relation : Relation}
    (sound : registry.relationFault? resource relation = none) :
    ∃ target, registry.resource relation.target = .ok target ∧
      (relation.kind = .belongsTo → relation.foreignKey ∈ resource.columns) ∧
      (relation.kind ≠ .belongsTo → relation.foreignKey ∈ target.columns) := by
  cases known : registry.find? relation.target with
  | none => simp [relationFault?, known] at sound
  | some target =>
      refine ⟨target, by rw [Registry.resource, known], ?_, ?_⟩
      · intro belongsTo
        simpa [relationFault?, known, belongsTo] using sound
      · intro leadsOut
        cases kind : relation.kind with
        | belongsTo => exact absurd kind leadsOut
        | hasMany => simpa [relationFault?, known, kind] using sound
        | hasOne => simpa [relationFault?, known, kind] using sound

/-- A resource has no fault when each of its parts has none. -/
theorem fault_eq_none_iff :
    registry.fault? resource = none ↔
      resource.keyName ∈ resource.columns ∧
        (resource.softDeletes = true → resource.deletedAtColumn ∈ resource.columns) ∧
        unknownFieldsFault? resource = none ∧
        (∀ entry ∈ resource.relations, registry.relationFault? resource entry.2 = none) ∧
        (∀ pattern ∈ resource.includes, registry.includeFault? resource pattern = none) ∧
        ∀ name ∈ resource.aggregates, ∃ relation, resource.relation name = .ok relation := by
  have declared : ∀ name, (resource.relations.any (·.1 == name) = true ↔
      ∃ relation, resource.relation name = .ok relation) := by
    intro name
    rw [← Entries.lookup_isSome, Resource.relation]
    cases resource.relations.lookup name <;> simp
  unfold fault?
  split
  · rename_i noKey
    constructor
    · intro none
      cases none
    · rintro ⟨isKey, _⟩
      exact absurd isKey (by simpa using noKey)
  · rename_i isKey
    split
    · rename_i noColumn
      rw [Bool.and_eq_true] at noColumn
      constructor
      · intro none
        cases none
      · rintro ⟨_, isColumn, _⟩
        exact absurd (isColumn noColumn.1) (by simpa using noColumn.2)
    · rename_i isColumn
      have key : resource.keyName ∈ resource.columns := by simpa using isKey
      have deletedAt : resource.softDeletes = true →
          resource.deletedAtColumn ∈ resource.columns := by simpa using isColumn
      simp only [Option.orElse_eq_orElse, Option.orElse_eq_or, Option.or_eq_none_iff,
        Option.map_eq_none_iff, List.findSome?_eq_none_iff, List.find?_eq_none, Bool.not_eq_true',
        Bool.not_eq_false, declared]
      exact ⟨fun parts => ⟨key, deletedAt, parts⟩, fun parts => parts.2.2⟩

/-- A finalized registry was checked resource by resource. -/
theorem checked (valid : registry.validate = .ok ()) (registered : resource ∈ registry.resources) :
    registry.Checked resource := by
  obtain ⟨key, deletedAt, listed, relations, _, aggregates⟩ :=
    fault_eq_none_iff.mp (fault_eq_none valid registered)
  exact {
    key, deletedAt, aggregates
    listed := listed_of_unknownFieldsFault listed
    foreignKeys := fun entry isEntry => foreignKey_of_relationFault (relations entry isEntry) }

/-- Both columns that a relation joins by are there exactly when a given local key is one of those
of the resource that it refers to: the foreign key and the key of a resource have been checked. -/
theorem joining_iff (valid : registry.validate = .ok ()) {owner target : Resource}
    (registered : owner ∈ registry.resources) {entry : String × Relation}
    (isEntry : entry ∈ owner.relations) (known : registry.resource entry.2.target = .ok target) :
    entry.2.ownerField owner target ∈ owner.columns ∧
        entry.2.targetField owner target ∈ target.columns ↔
      ∀ column ∈ entry.2.givenLocalKey?, column ∈ (entry.2.referent owner target).columns := by
  have isTarget := mem_of_resource known
  obtain ⟨other, isOther, inOwner, inTarget⟩ := (checked valid registered).foreignKeys entry isEntry
  obtain rfl : target = other := Except.ok.inj (known.symm.trans isOther)
  have key : (entry.2.referent owner target).keyName ∈ (entry.2.referent owner target).columns := by
    unfold Relation.referent
    split
    · exact (checked valid isTarget).key
    · exact (checked valid registered).key
  have refers : entry.2.givenLocalKey?.getD (entry.2.referent owner target).keyName ∈
        (entry.2.referent owner target).columns ↔
      ∀ column ∈ entry.2.givenLocalKey?, column ∈ (entry.2.referent owner target).columns := by
    cases entry.2.givenLocalKey? with
    | some column => simp
    | none => simpa using key
  rw [← refers]
  unfold Relation.referent Relation.ownerField Relation.targetField Relation.joiningFields
  cases kind : entry.2.kind with
  | belongsTo => exact and_iff_right (inOwner kind)
  | hasMany => exact and_iff_left (inTarget (by simp [kind]))
  | hasOne => exact and_iff_left (inTarget (by simp [kind]))

namespace Consistent

theorem holds_iff (consistent : registry.Consistent) (registered : resource ∈ registry.resources)
    {field : String} : registry.Holds resource.name field ↔ field ∈ resource.columns := by
  constructor
  · intro holds
    exact holds resource registered rfl
  · intro isColumn other isOther sameName
    have same : other = resource :=
      List.inj_on_of_nodup_map consistent.distinct isOther registered sameName
    rwa [same]

/-- Both columns that a relation joins by are there. -/
theorem joining (consistent : registry.Consistent) {owner target : Resource}
    (registered : owner ∈ registry.resources) {entry : String × Relation}
    (isEntry : entry ∈ owner.relations) (known : registry.resource entry.2.target = .ok target) :
    entry.2.ownerField owner target ∈ owner.columns ∧
      entry.2.targetField owner target ∈ target.columns :=
  (joining_iff consistent.valid registered isEntry known).mpr
    (consistent.localKeys owner registered entry isEntry target known)

/-- Whatever requests may name, and whatever the store looks at on its own, is a column. -/
theorem exposes (consistent : registry.Consistent) : registry.Exposes registry.Holds where
  listed resource registered field isListed :=
    (consistent.holds_iff registered).mpr ((checked consistent.valid registered).listed field isListed)
  key resource registered :=
    (consistent.holds_iff registered).mpr (checked consistent.valid registered).key
  deletedAt resource registered softDeletes :=
    (consistent.holds_iff registered).mpr
      ((checked consistent.valid registered).deletedAt softDeletes)
  joining owner registered entry isEntry target known := by
    have joined := consistent.joining registered isEntry known
    exact ⟨(consistent.holds_iff registered).mpr joined.1,
      (consistent.holds_iff (mem_of_resource known)).mpr joined.2⟩

end Consistent

end Registry

/-! ## Specifications -/

/-- A relation is declared under a name, leads to a registered resource, and joins one of the
given columns of its owner with a column of its target. -/
def Registry.Joins (registry : Registry) (owner : Resource) (name : String)
    (columns : List String) : Prop :=
  ∃ relation target, owner.relation name = .ok relation ∧
    registry.resource relation.target = .ok target ∧
      relation.ownerField owner target ∈ columns ∧
        relation.targetField owner target ∈ target.columns

/-- Everything that a specification names is there.  The relations that are to be loaded join
columns that are read. -/
structure QuerySpec.Executable (registry : Registry) (spec : QuerySpec) : Prop where
  registered : spec.resource ∈ registry.resources
  wheres : ∀ node ∈ spec.wheres, node.fields ⊆ spec.resource.columns
  search : ∀ term ∈ spec.searchTerm, term.fields ⊆ spec.resource.columns
  selected : spec.selectedColumns ⊆ spec.resource.columns
  sorts : ∀ directive ∈ spec.sorts,
    directive.field ∈ spec.resource.columns ∨ directive.field ∈ spec.aggregateAliases
  aggregates : ∀ aggregate ∈ spec.aggregates,
    registry.Joins spec.resource aggregate.relation spec.resource.columns
  steps : ∀ step ∈ RelationStep.ofRequests spec.includes,
    registry.Joins spec.resource step.request.path spec.selectedColumns

/-- A specification leads to another one when loading relations makes the one from the other,
at any depth. -/
inductive QuerySpec.LeadsTo (registry : Registry) : QuerySpec → QuerySpec → Prop
  | refl (spec : QuerySpec) : LeadsTo registry spec spec
  | through {spec query last : QuerySpec} {step : RelationStep} {relation : Relation}
      {target : Resource} {values : List Value}
      (member : step ∈ RelationStep.ofRequests spec.includes)
      (declared : spec.resource.relation step.request.path = .ok relation)
      (known : registry.resource relation.target = .ok target)
      (isQuery : relatedQuery target (relation.targetField spec.resource target) values
        step.request step.below = .ok query)
      (onward : LeadsTo registry query last) : LeadsTo registry spec last

/-- The path of a request ends in a dot: it has several segments, and nothing follows the last
dot. -/
def RelationRequest.EndsInDot (request : RelationRequest) : Prop :=
  1 < request.segments.length ∧ request.segments.getLast? = some ""

instance (request : RelationRequest) : Decidable request.EndsInDot :=
  inferInstanceAs (Decidable (_ ∧ _))

/-- A specification is prepared when it names columns only, counts what may be counted, reads the
columns that its relations join by, and its requests lead somewhere. -/
structure QuerySpec.Prepared (registry : Registry) (spec : QuerySpec) : Prop where
  registered : spec.resource ∈ registry.resources
  names : spec.NamesVisible registry.Holds
  selected : spec.selectedColumns ⊆ spec.resource.columns
  aggregates : ∀ aggregate ∈ spec.aggregates, aggregate.relation ∈ spec.resource.aggregates
  leads : ∀ request ∈ spec.includes, request.LeadsVisible registry registry.Holds spec.resource
  ends : ∀ request ∈ spec.includes, ¬ request.EndsInDot
  joined : ∀ request ∈ spec.includes, ∀ relation target,
    spec.resource.relation (RelationStep.head request.path) = .ok relation →
      registry.resource relation.target = .ok target →
        relation.ownerField spec.resource target ∈ spec.selectedColumns

section Steps

variable {registry : Registry} {visible : Visibility} {owner : Resource}
  {requests : List RelationRequest}

/-- Nothing follows the first segment of a path that does not end in a dot, when its tail is
empty. -/
theorem RelationRequest.segments_of_tail_empty {request : RelationRequest}
    (ends : ¬ request.EndsInDot) (last : (RelationStep.tail request.path).isEmpty = true) :
    request.segments = [request.path] := by
  cases pathSegments_of_tail_empty last with
  | inl single => exact single
  | inr double =>
      obtain ⟨first, double, _⟩ := double
      refine absurd ?_ ends
      rw [EndsInDot, segments, double]
      exact ⟨by simp, rfl⟩

/-- The request for a relation itself is a plain one, or one that was made for its path. -/
theorem RelationStep.directRequest_cases {name : String}
    (ends : ∀ request ∈ requests, head request.path = name → ¬ request.EndsInDot) :
    directRequest name requests = { path := name } ∨
      directRequest name requests ∈ requests ∧ (directRequest name requests).path = name ∧
        (directRequest name requests).segments = [name] := by
  unfold directRequest
  cases last : (requests.filter fun request => head request.path == name &&
      (tail request.path).isEmpty).getLast? with
  | none => exact .inl rfl
  | some request =>
      obtain ⟨isRequest, starts⟩ := List.mem_filter.mp (List.mem_of_getLast? last)
      rw [Bool.and_eq_true, beq_iff_eq] at starts
      have single := RelationRequest.segments_of_tail_empty (ends request isRequest starts.1) starts.2
      have isName : request.path = name := by
        rw [← starts.1, head, ← RelationRequest.segments, single]
        rfl
      rw [isName] at single
      exact .inr ⟨isRequest, isName, single⟩

/-- The path below the first relation of a request ends like the path itself. -/
theorem RelationRequest.endsInDot_of_tail {request : RelationRequest}
    (someTail : (RelationStep.tail request.path).isEmpty = false)
    (ends : ({ request with path := RelationStep.tail request.path } : RelationRequest).EndsInDot) :
    request.EndsInDot := by
  obtain ⟨several, last⟩ := ends
  rw [segments, RelationStep.pathSegments_tail someTail] at several last
  rw [EndsInDot, segments, pathSegments_eq_cons]
  generalize (pathSegments request.path).drop 1 = rest at several last
  cases rest with
  | nil => cases last
  | cons second rest =>
      rw [List.getLast?_cons_cons]
      exact ⟨by simp, last⟩

/-- What a request says about the relation that its path starts with. -/
theorem RelationRequest.LeadsVisible.first {request : RelationRequest}
    (leads : request.LeadsVisible registry visible owner) :
    ∃ relation target, owner.relation (RelationStep.head request.path) = .ok relation ∧
      registry.resource relation.target = .ok target ∧
        (request.segments = [request.path] → request.NamesVisible visible target) := by
  obtain ⟨hops, hop, followed, atEnd, names⟩ := leads
  have cut : request.segments = _ := pathSegments_eq_cons request.path
  rw [cut] at followed
  obtain ⟨relation, target, more, declared, known, onward, rfl⟩ := follow_cons_eq_ok.mp followed
  refine ⟨relation, target, declared, known, ?_⟩
  intro single
  rw [cut, List.cons.injEq] at single
  rw [single.2] at onward
  cases onward
  cases atEnd
  exact names

/-- Every step stands for a relation that some request starts with.  The conditions of the step
are on the target of this relation. -/
theorem RelationStep.leads
    (leads : ∀ request ∈ requests, request.LeadsVisible registry visible owner)
    (ends : ∀ request ∈ requests, ¬ request.EndsInDot) {step : RelationStep}
    (member : step ∈ RelationStep.ofRequests requests) :
    ∃ request ∈ requests, ∃ relation target, RelationStep.head request.path = step.request.path ∧
      owner.relation step.request.path = .ok relation ∧
        registry.resource relation.target = .ok target ∧
          step.request.NamesVisible visible target ∧
            step.below = RelationStep.belowRequests step.request.path requests := by
  obtain ⟨name, isName, rfl⟩ := List.mem_map.mp member
  obtain ⟨request, isRequest, rfl⟩ := List.mem_map.mp (mem_distinctNames.mp isName)
  dsimp only
  rcases directRequest_cases fun other isOther (_ : head other.path = head request.path) =>
    ends other isOther with isPlain | ⟨isDirect, isName, single⟩
  · obtain ⟨relation, target, declared, known, _⟩ := (leads request isRequest).first
    rw [isPlain]
    exact ⟨request, isRequest, relation, target, rfl, declared, known, ⟨nofun, nofun⟩, rfl⟩
  · generalize directRequest (head request.path) requests = direct at *
    obtain ⟨relation, target, declared, known, names⟩ := (leads direct isDirect).first
    rw [isName, head_head] at declared
    refine ⟨direct, isDirect, relation, target, ?_, ?_, known, names (isName ▸ single), ?_⟩
    · rw [isName, head_head]
    · rw [isName, declared]
    · rw [isName]

end Steps

namespace QuerySpec

variable {registry : Registry} {spec query last : QuerySpec}

/-- A count that may be taken joins columns that are there. -/
theorem joins_aggregate (consistent : registry.Consistent) {owner : Resource} {name : String}
    (registered : owner ∈ registry.resources) (isAggregate : name ∈ owner.aggregates) :
    registry.Joins owner name owner.columns := by
  have checked := Registry.checked consistent.valid registered
  obtain ⟨relation, declared⟩ := checked.aggregates name isAggregate
  have isEntry := Resource.mem_of_relation declared
  obtain ⟨target, known, _⟩ := checked.foreignKeys _ isEntry
  exact ⟨relation, target, declared, known, consistent.joining registered isEntry known⟩

theorem Prepared.executable (consistent : registry.Consistent) (prepared : spec.Prepared registry) :
    spec.Executable registry where
  registered := prepared.registered
  wheres node member field isField :=
    (consistent.holds_iff prepared.registered).mp (prepared.names.wheres node member field isField)
  search term isTerm field isField :=
    (consistent.holds_iff prepared.registered).mp (prepared.names.search term isTerm field isField)
  selected := prepared.selected
  sorts directive member := by
    cases prepared.names.sorts directive member with
    | inl isCount => exact .inr isCount
    | inr holds => exact .inl ((consistent.holds_iff prepared.registered).mp holds)
  aggregates aggregate member :=
    joins_aggregate consistent prepared.registered (prepared.aggregates aggregate member)
  steps step member := by
    obtain ⟨request, isRequest, relation, target, isHead, declared, known, _⟩ :=
      RelationStep.leads prepared.leads prepared.ends member
    refine ⟨relation, target, declared, known, ?_, ?_⟩
    · rw [← isHead] at declared
      exact prepared.joined request isRequest relation target declared known
    · exact (consistent.joining prepared.registered (Resource.mem_of_relation declared) known).2

/-- The query for related entities is prepared when the specification is. -/
theorem Prepared.related (consistent : registry.Consistent) (prepared : spec.Prepared registry)
    {step : RelationStep} {relation : Relation} {target : Resource} {values : List Value}
    (member : step ∈ RelationStep.ofRequests spec.includes)
    (declared : spec.resource.relation step.request.path = .ok relation)
    (known : registry.resource relation.target = .ok target)
    (isQuery : relatedQuery target (relation.targetField spec.resource target) values step.request
      step.below = .ok query) :
    query.Prepared registry := by
  obtain ⟨request, isRequest, first, next, _, isFirst, isNext, names, isBelow⟩ :=
    RelationStep.leads prepared.leads prepared.ends member
  obtain rfl : relation = first := Except.ok.inj (declared.symm.trans isFirst)
  obtain rfl : target = next := Except.ok.inj (known.symm.trans isNext)
  have isEntry := Resource.mem_of_relation declared
  have isTarget := Registry.mem_of_resource known
  have joins := consistent.joining prepared.registered isEntry known
  obtain ⟨isResource, named⟩ := relatedQuery_namesVisible names
    ((consistent.holds_iff isTarget).mpr joins.2) isQuery
  have includes : ∀ below ∈ query.includes,
      below ∈ RelationStep.belowRequests step.request.path spec.includes := by
    intro below isIncluded
    rw [relatedQuery_includes isQuery, isBelow] at isIncluded
    exact mem_mergeRequests isIncluded
  have whole : query.columns = none ∧
      query.aggregates = sortAggregates target step.request := by
    rw [relatedQuery_eq] at isQuery
    obtain ⟨leaf, _, rfl⟩ := Sql.map_eq_ok.mp isQuery
    exact ⟨rfl, rfl⟩
  have selects : query.selectedColumns = target.columns := by
    rw [selectedColumns, whole.1, isResource]
  refine ⟨isResource ▸ isTarget, named, ?_, ?_, ?_, ?_, ?_⟩
  · rw [selects, isResource]
    exact List.Subset.refl _
  · intro aggregate isAggregate
    rw [whole.2] at isAggregate
    obtain ⟨name, isName, rfl⟩ := List.mem_map.mp (List.mem_of_mem_filter isAggregate)
    rwa [isResource]
  · intro below isIncluded
    rw [isResource]
    exact belowRequests_leadVisible prepared.leads declared known below (includes below isIncluded)
  · intro below isIncluded ends
    obtain ⟨above, isAbove, rfl⟩ := List.mem_map.mp (includes below isIncluded)
    obtain ⟨isGiven, starts⟩ := List.mem_filter.mp isAbove
    rw [Bool.and_eq_true, Bool.not_eq_true'] at starts
    exact prepared.ends above isGiven (RelationRequest.endsInDot_of_tail starts.2 ends)
  · intro below _ relation other isRelation isOther
    rw [isResource] at isRelation ⊢
    rw [selects]
    exact (consistent.joining isTarget (Resource.mem_of_relation isRelation) isOther).1

/-- Whatever a prepared specification leads to is executable, by induction along the relations. -/
theorem Prepared.leadsTo (consistent : registry.Consistent) (prepared : spec.Prepared registry)
    (leadsTo : spec.LeadsTo registry last) : last.Executable registry := by
  induction leadsTo with
  | refl spec => exact prepared.executable consistent
  | through member declared known isQuery _ induction =>
      exact induction (prepared.related consistent member declared known isQuery)

/-- The key is always read. -/
theorem Executable.selects_key (valid : registry.validate = .ok ())
    (executable : spec.Executable registry) : spec.resource.keyName ∈ spec.selectedColumns := by
  unfold selectedColumns
  split
  · exact (Registry.checked valid executable.registered).key
  · exact mem_distinctNames.mpr List.mem_cons_self

end QuerySpec

end ResourceServer
