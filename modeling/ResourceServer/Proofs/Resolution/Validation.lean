import ResourceServer.Operations
import ResourceServer.Proofs.Catalog.History
import ResourceServer.Proofs.Resolution.Answers

/-!
# What validation covers

A registry is checked once, before any request is answered.  When it passes, every relation leads to
a registered resource, every include pattern leads along declared relations, and every count is one
of a declared relation.  Of the columns that a relation joins by, the foreign key and the key of a
resource are checked, but a local key that takes the place of the key is not.  So both columns are
there exactly when a given local key is one, and by such relations every store loads, counts and
narrows without looking up a column that is not there.
-/

namespace ResourceServer

/-! ## Registering -/

namespace Registry

theorem foldlM_register_eq_ok {resources : List Resource} {before after : Registry}
    (distinct : before.names.Nodup) (made : resources.foldlM register before = .ok after) :
    after.resources = before.resources ++ resources ∧ after.names.Nodup := by
  induction resources generalizing before with
  | nil =>
      cases made
      exact ⟨(List.append_nil _).symm, distinct⟩
  | cons resource rest induction =>
      rw [List.foldlM_cons] at made
      obtain ⟨next, registered, made⟩ := bind_eq_ok.mp made
      obtain ⟨fresh, rfl⟩ := register_eq_ok.mp registered
      have stillDistinct : (⟨before.resources ++ [resource]⟩ : Registry).names.Nodup := by
        rw [names, List.map_append]
        exact List.nodup_append_comm.mp (List.nodup_cons.mpr ⟨fresh, distinct⟩)
      obtain ⟨isAfter, isDistinct⟩ := induction stillDistinct made
      exact ⟨by rw [isAfter, List.append_assoc]; rfl, isDistinct⟩

/-- A registry has the resources that it is made of, and their names are different. -/
theorem ofList_eq_ok {resources : List Resource} {registry : Registry}
    (made : ofList resources = .ok registry) :
    registry.resources = resources ∧ registry.names.Nodup := by
  have empty : ({} : Registry).names.Nodup := List.nodup_nil
  exact foldlM_register_eq_ok empty made

end Registry

/-! ## Relations -/

namespace Relation

/-- A local key, when there is one, is a column of the resource that it refers to. -/
def RefersToColumn (relation : Relation) (owner target : Resource) : Prop :=
  ∀ column ∈ relation.givenLocalKey?, column ∈ (relation.referent owner target).columns

instance (relation : Relation) (owner target : Resource) :
    Decidable (relation.RefersToColumn owner target) :=
  inferInstanceAs (Decidable (∀ column ∈ relation.givenLocalKey?, _))

/-- Both columns that a relation joins by are there. -/
def JoinsColumns (relation : Relation) (owner target : Resource) : Prop :=
  relation.ownerField owner target ∈ owner.columns ∧
    relation.targetField owner target ∈ target.columns

/-- The resource whose rows keep the foreign key. -/
def keeper (relation : Relation) (owner target : Resource) : Resource :=
  match relation.kind with
  | .belongsTo => owner
  | _ => target

/-- The filter for what is related to one entity by its joining value, or to several entities. -/
def IsFilter (relation : Relation) (owner target : Resource) (leaf : Filter.Leaf) : Prop :=
  (∃ value, RelationEndpoint.scopeFor (relation.targetField owner target) value = .ok leaf) ∨
    ∃ values, Filter.Leaf.make (relation.targetField owner target) .isIn (.list values) = .ok leaf

theorem IsFilter.field_eq {relation : Relation} {owner target : Resource} {leaf : Filter.Leaf}
    (isFilter : relation.IsFilter owner target leaf) :
    leaf.field = relation.targetField owner target := by
  rcases isFilter with ⟨value, made⟩ | ⟨values, made⟩
  · unfold RelationEndpoint.scopeFor at made
    split at made
    · rw [(Filter.Leaf.make_eq_ok.mp made).2]
    · rw [(Filter.Leaf.make_eq_ok.mp made).2]
  · rw [(Filter.Leaf.make_eq_ok.mp made).2]

end Relation

/-- What is known of a relation in a registry that was checked: its target is registered, its
foreign key is a column, and a local key alone decides whether it joins columns that are there. -/
structure Registry.Covers (registry : Registry) (owner : Resource) (relation : Relation)
    (target : Resource) : Prop where
  known : registry.resource relation.target = .ok target
  foreignKey : relation.foreignKey ∈ (relation.keeper owner target).columns
  joins_iff : relation.JoinsColumns owner target ↔ relation.RefersToColumn owner target

/-- Something is true of every hop, of the name that it is taken by and the resource that it starts
at. -/
inductive EveryHop (property : Resource → String → Hop → Prop) :
    Resource → List String → List Hop → Prop
  | nil (owner : Resource) : EveryHop property owner [] []
  | cons {owner : Resource} {name : String} {names : List String} {hop : Hop} {hops : List Hop}
      (first : property owner name hop) (rest : EveryHop property hop.target names hops) :
      EveryHop property owner (name :: names) (hop :: hops)

/-- A hop is by a declared relation that has been checked. -/
def Registry.Takes (registry : Registry) (owner : Resource) (name : String) (hop : Hop) : Prop :=
  owner.relation name = .ok hop.relation ∧ registry.Covers owner hop.relation hop.target

/-- A hop is by a relation whose local key is a column. -/
def Hop.RefersToColumn (owner : Resource) (_ : String) (hop : Hop) : Prop :=
  hop.relation.RefersToColumn owner hop.target

instance (owner : Resource) (name : String) (hop : Hop) :
    Decidable (hop.RefersToColumn owner name) :=
  inferInstanceAs (Decidable (hop.relation.RefersToColumn _ _))

namespace Registry

variable {registry : Registry} {owner : Resource}

theorem exists_covers (valid : registry.validate = .ok ()) (registered : owner ∈ registry.resources)
    {entry : String × Relation} (isEntry : entry ∈ owner.relations) :
    ∃ target ∈ registry.resources, registry.Covers owner entry.2 target := by
  obtain ⟨target, known, inOwner, inTarget⟩ :=
    (checked valid registered).foreignKeys entry isEntry
  refine ⟨target, mem_of_resource known, known, ?_, joining_iff valid registered isEntry known⟩
  unfold Relation.keeper
  split
  · rename_i belongsTo
    exact inOwner belongsTo
  · rename_i leadsOut
    exact inTarget leadsOut

/-- Whatever path can be followed, it is followed by relations that have been checked. -/
theorem everyHop_of_follow (valid : registry.validate = .ok ())
    (registered : owner ∈ registry.resources) {names : List String} {hops : List Hop}
    (followed : registry.follow owner names = .ok hops) :
    EveryHop registry.Takes owner names hops := by
  induction names generalizing owner hops with
  | nil =>
      cases followed
      exact .nil owner
  | cons name rest induction =>
      obtain ⟨relation, target, more, declared, known, onward, rfl⟩ :=
        follow_cons_eq_ok.mp followed
      obtain ⟨other, isOther, covers⟩ :=
        exists_covers valid registered (Resource.mem_of_relation declared)
      obtain rfl : target = other := Except.ok.inj (known.symm.trans covers.known)
      exact .cons ⟨declared, covers⟩ (induction isOther onward)

theorem resolvePath_of_include (valid : registry.validate = .ok ())
    (registered : owner ∈ registry.resources) {pattern : String}
    (isPattern : pattern ∈ owner.includes) (notAll : pattern ≠ "*") :
    ∃ hops, registry.resolvePath owner (concretePath pattern) = .ok hops := by
  obtain ⟨_, _, _, _, includes, _⟩ := fault_eq_none_iff.mp (fault_eq_none valid registered)
  have sound := includes pattern isPattern
  unfold includeFault? at sound
  rw [if_neg notAll] at sound
  split at sound
  · rename_i hops resolved
    exact ⟨hops, resolved⟩
  · cases sound

end Registry

/-! ## Queries by relations -/

/-- A request for nothing but the relations along a path that can be followed and does not end in a
dot, where every local key is a column. -/
structure RelationRequest.Leads (registry : Registry) (owner : Resource)
    (request : RelationRequest) : Prop where
  plain : request = { path := request.path }
  ends : ¬ request.EndsInDot
  leads : ∃ hops, registry.resolvePath owner request.path = .ok hops ∧
    EveryHop Hop.RefersToColumn owner request.segments hops

/-- A query that does nothing but load, count and narrow by relations whose local keys are
columns. -/
structure QuerySpec.ByRelations (registry : Registry) (spec : QuerySpec) : Prop where
  bare : spec.searchTerm = none ∧ spec.sorts = [] ∧ spec.columns = none
  loads : ∀ request ∈ spec.includes, request.Leads registry spec.resource
  counts : ∀ aggregate ∈ spec.aggregates, ∃ relation target,
    spec.resource.relation aggregate.relation = .ok relation ∧
      registry.resource relation.target = .ok target ∧ relation.RefersToColumn spec.resource target
  narrows : ∀ node ∈ spec.wheres, ∃ parent ∈ registry.resources, ∃ entry ∈ parent.relations,
    registry.resource entry.2.target = .ok spec.resource ∧
      entry.2.RefersToColumn parent spec.resource ∧
        ∃ leaf, entry.2.IsFilter parent spec.resource leaf ∧ node = .leaf leaf

section Requests

variable {registry : Registry} {owner target : Resource} {request : RelationRequest}

/-- The first relation of a path refers to a column, and the path goes on from its target. -/
theorem RelationRequest.Leads.first (leads : request.Leads registry owner) :
    ∃ relation target, owner.relation (RelationStep.head request.path) = .ok relation ∧
      registry.resource relation.target = .ok target ∧ relation.RefersToColumn owner target ∧
        ∃ hops, registry.follow target (request.segments.drop 1) = .ok hops ∧
          EveryHop Hop.RefersToColumn target (request.segments.drop 1) hops := by
  obtain ⟨_, _, hops, followed, every⟩ := leads
  have cut : request.segments = _ := pathSegments_eq_cons request.path
  rw [Registry.resolvePath, ← RelationRequest.segments, cut] at followed
  obtain ⟨relation, target, more, declared, known, onward, rfl⟩ := follow_cons_eq_ok.mp followed
  rw [cut] at every
  cases every with
  | cons first rest => exact ⟨relation, target, declared, known, first, more, onward, rest⟩

theorem RelationRequest.Leads.visible (leads : request.Leads registry owner) :
    request.LeadsVisible registry registry.Holds owner := by
  obtain ⟨plain, _, hops, followed, every⟩ := leads
  have some : hops ≠ [] := by
    rintro rfl
    have cut : request.segments = _ := pathSegments_eq_cons request.path
    rw [cut] at every
    cases every
  refine ⟨hops, hops.getLast some, followed, List.getLast?_eq_some_getLast some, ?_⟩
  rw [plain]
  exact ⟨nofun, nofun⟩

/-- What a step asks for below its relation leads on from the target of the relation. -/
theorem RelationRequest.Leads.below {requests : List RelationRequest} {name : String}
    (leads : ∀ request ∈ requests, request.Leads registry owner) {relation : Relation}
    (declared : owner.relation name = .ok relation)
    (known : registry.resource relation.target = .ok target) :
    ∀ request ∈ RelationStep.belowRequests name requests, request.Leads registry target := by
  intro request isBelow
  obtain ⟨above, isAbove, rfl⟩ := List.mem_map.mp isBelow
  obtain ⟨isRequest, starts⟩ := List.mem_filter.mp isAbove
  rw [Bool.and_eq_true, beq_iff_eq, Bool.not_eq_true'] at starts
  obtain ⟨first, next, isFirst, isNext, _, hops, onward, every⟩ := (leads above isRequest).first
  rw [starts.1] at isFirst
  obtain rfl : relation = first := Except.ok.inj (declared.symm.trans isFirst)
  obtain rfl : target = next := Except.ok.inj (known.symm.trans isNext)
  have tail := RelationStep.pathSegments_tail starts.2
  refine ⟨?_, fun ends => ?_, hops, ?_, ?_⟩
  · rw [(leads above isRequest).plain]
  · exact (leads above isRequest).ends (RelationRequest.endsInDot_of_tail starts.2 ends)
  · rwa [Registry.resolvePath, tail]
  · rwa [RelationRequest.segments, tail]

/-- A step that stands for plain requests has no conditions and goes by a relation that refers to a
column. -/
theorem RelationStep.refersToColumn {requests : List RelationRequest}
    (leads : ∀ request ∈ requests, request.Leads registry owner) {step : RelationStep}
    (member : step ∈ ofRequests requests) :
    step.request = { path := step.request.path } ∧
      step.below = belowRequests step.request.path requests ∧
        ∃ relation target, owner.relation step.request.path = .ok relation ∧
          registry.resource relation.target = .ok target ∧ relation.RefersToColumn owner target := by
  have ends : ∀ request ∈ requests, ¬ request.EndsInDot :=
    fun request isRequest => (leads request isRequest).ends
  obtain ⟨request, isRequest, _, _, isHead, _, _, _, isBelow⟩ :=
    RelationStep.leads (fun request isRequest => (leads request isRequest).visible) ends member
  obtain ⟨relation, target, declared, known, refers, _⟩ := (leads request isRequest).first
  rw [isHead] at declared
  refine ⟨?_, isBelow, relation, target, declared, known, refers⟩
  obtain ⟨name, _, rfl⟩ := List.mem_map.mp member
  have endsHere : ∀ request ∈ requests, head request.path = name → ¬ request.EndsInDot :=
    fun request isRequest _ => ends request isRequest
  dsimp only
  rcases directRequest_cases endsHere with isPlain | ⟨isDirect, _⟩
  · rw [isPlain]
  · exact (leads _ isDirect).plain

end Requests

namespace QuerySpec.ByRelations

variable {registry : Registry} {spec query last : QuerySpec}

theorem executable (valid : registry.validate = .ok ())
    (registered : spec.resource ∈ registry.resources) (byRelations : spec.ByRelations registry) :
    spec.Executable registry := by
  obtain ⟨⟨noSearch, noSorts, whole⟩, loads, counts, narrows⟩ := byRelations
  have selects : spec.selectedColumns = spec.resource.columns := by
    rw [selectedColumns, whole]
  have joins : ∀ {name relation target}, spec.resource.relation name = .ok relation →
      registry.resource relation.target = .ok target →
        relation.RefersToColumn spec.resource target →
          registry.Joins spec.resource name spec.resource.columns := by
    intro name relation target declared known refers
    have isEntry := Resource.mem_of_relation declared
    exact ⟨relation, target, declared, known,
      (Registry.joining_iff valid registered isEntry known).mpr refers⟩
  refine ⟨registered, ?_, ?_, ?_, ?_, ?_, ?_⟩
  · intro node isNode field isField
    obtain ⟨parent, isParent, entry, isEntry, known, refers, leaf, isFilter, rfl⟩ :=
      narrows node isNode
    rw [Filter.Node.fields, List.mem_singleton] at isField
    rw [isField, isFilter.field_eq]
    exact ((Registry.joining_iff valid isParent isEntry known).mpr refers).2
  · intro term isTerm
    rw [noSearch] at isTerm
    cases isTerm
  · rw [selects]
    exact List.Subset.refl _
  · intro directive isSort
    rw [noSorts] at isSort
    cases isSort
  · intro aggregate isAggregate
    obtain ⟨relation, target, declared, known, refers⟩ := counts aggregate isAggregate
    exact joins declared known refers
  · intro step isStep
    obtain ⟨_, _, relation, target, declared, known, refers⟩ :=
      RelationStep.refersToColumn loads isStep
    rw [selects]
    exact joins declared known refers

/-- The query for what a relation leads to is one by relations again: it is narrowed by that
relation and loads what is asked for below it. -/
theorem related (registered : spec.resource ∈ registry.resources)
    (byRelations : spec.ByRelations registry) {step : RelationStep} {relation : Relation}
    {target : Resource} {values : List Value}
    (member : step ∈ RelationStep.ofRequests spec.includes)
    (declared : spec.resource.relation step.request.path = .ok relation)
    (known : registry.resource relation.target = .ok target)
    (isQuery : relatedQuery target (relation.targetField spec.resource target) values step.request
      step.below = .ok query) :
    query.resource = target ∧ query.ByRelations registry := by
  obtain ⟨plain, isBelow, first, next, isFirst, isNext, refers⟩ :=
    RelationStep.refersToColumn byRelations.loads member
  obtain rfl : relation = first := Except.ok.inj (declared.symm.trans isFirst)
  obtain rfl : target = next := Except.ok.inj (known.symm.trans isNext)
  rw [relatedQuery_eq, isBelow, plain] at isQuery
  obtain ⟨leaf, made, rfl⟩ := Sql.map_eq_ok.mp isQuery
  refine ⟨rfl, ⟨rfl, rfl, rfl⟩, ?_, ?_, ?_⟩
  · intro below isIncluded
    have isAsked := mem_mergeRequests isIncluded
    exact RelationRequest.Leads.below byRelations.loads declared known below isAsked
  · intro aggregate isAggregate
    -- Nothing is sorted by a count, so nothing is counted.
    cases (List.mem_filter.mp isAggregate).2
  · intro node isNode
    rw [List.mem_singleton.mp isNode]
    exact ⟨spec.resource, registered, _, Resource.mem_of_relation declared, known, refers, leaf,
      .inr ⟨values, made⟩, rfl⟩

/-- Whatever is loaded by relations leads to executable queries, by induction along the relations. -/
theorem leadsTo (valid : registry.validate = .ok ())
    (registered : spec.resource ∈ registry.resources) (byRelations : spec.ByRelations registry)
    (leadsTo : spec.LeadsTo registry last) : last.Executable registry := by
  induction leadsTo with
  | refl spec => exact byRelations.executable valid registered
  | through member declared known isQuery _ induction =>
      obtain ⟨isResource, onward⟩ := byRelations.related registered member declared known isQuery
      exact induction (isResource ▸ Registry.mem_of_resource known) onward

end QuerySpec.ByRelations

/-! ## Registries that are accepted -/

/-- When a registry of some resources is accepted, each relation of each resource leads to one of
them by a foreign key that is a column, each include pattern but a star leads along such relations,
and each count is one of a declared relation.  Both columns that a relation joins by are there as
long as a given local key is one.  By such relations every store loads, counts and narrows without
looking up a name that is not there, at any depth. -/
theorem Registry.validate_covers {resources : List Resource} {registry : Registry}
    (made : ofList resources = .ok registry) (valid : registry.validate = .ok ())
    {owner : Resource} (listed : owner ∈ resources) :
    (∀ entry ∈ owner.relations, ∃ target ∈ resources, registry.Covers owner entry.2 target) ∧
      (∀ pattern ∈ owner.includes, pattern ≠ "*" → ∃ hops,
        registry.resolvePath owner (concretePath pattern) = .ok hops ∧
          EveryHop registry.Takes owner (pathSegments (concretePath pattern)) hops) ∧
      (∀ name ∈ owner.aggregates, ∃ relation, owner.relation name = .ok relation) ∧
      ∀ spec : QuerySpec, spec.resource = owner → spec.ByRelations registry →
        spec.Answerable registry := by
  obtain ⟨isList, distinct⟩ := ofList_eq_ok made
  rw [← isList] at listed ⊢
  refine ⟨fun entry => exists_covers valid listed, ?_, (checked valid listed).aggregates, ?_⟩
  · intro pattern isPattern notAll
    obtain ⟨hops, resolved⟩ := resolvePath_of_include valid listed isPattern notAll
    exact ⟨hops, resolved, everyHop_of_follow valid listed resolved⟩
  · rintro spec rfl byRelations
    exact QuerySpec.answerable_of_executable distinct valid fun _ =>
      byRelations.leadsTo valid listed

/-- The books of a shelf with a number of labels, loaded as far as the books of these. -/
def shelvedBooks : QuerySpec where
  resource := Samples.Library.books
  wheres := [.leaf ⟨"shelf_code", .eq, .text "a", .both⟩]
  includes := [{ path := "labels.book" }]
  aggregates := [⟨"first_label"⟩]

theorem shelvedBooks_byRelations : shelvedBooks.ByRelations ⟨Samples.Library.resources⟩ where
  bare := ⟨rfl, rfl, rfl⟩
  loads request isRequest := by
    rw [List.mem_singleton.mp isRequest]
    have segments : pathSegments "labels.book" = ["labels", "book"] := by decide +kernel
    refine ⟨rfl, by decide +kernel, _, rfl, ?_⟩
    rw [RelationRequest.segments, segments]
    exact .cons (by decide +kernel) (.cons (by decide +kernel) (.nil _))
  counts aggregate isAggregate := by
    rw [List.mem_singleton.mp isAggregate]
    exact ⟨_, _, rfl, rfl, by decide +kernel⟩
  narrows node isNode := by
    refine ⟨Samples.Library.shelves, List.mem_cons_self, _, List.mem_cons_self, rfl, ?_, _, ?_,
      List.mem_singleton.mp isNode⟩
    · decide +kernel
    · exact .inl ⟨.text "a", rfl⟩

theorem validate_covers_books :
    Registry.ofList Samples.Library.resources = .ok ⟨Samples.Library.resources⟩ ∧
      (⟨Samples.Library.resources⟩ : Registry).validate = .ok () ∧
        Samples.Library.books ∈ Samples.Library.resources ∧
          shelvedBooks.ByRelations ⟨Samples.Library.resources⟩ ∧
            shelvedBooks.Answerable ⟨Samples.Library.resources⟩ := by
  have made : Registry.ofList Samples.Library.resources = .ok ⟨Samples.Library.resources⟩ := by rfl
  have isBooks : Samples.Library.books ∈ Samples.Library.resources :=
    List.mem_cons_of_mem _ List.mem_cons_self
  have covered := Registry.validate_covers made library_consistent.valid isBooks
  exact ⟨made, library_consistent.valid, isBooks, shelvedBooks_byRelations,
    covered.2.2.2 shelvedBooks rfl shelvedBooks_byRelations⟩

/-- Nodes that refer to their parent by a column that nodes do not have. -/
def strayNodes : Resource := { Samples.Library.nodes with
  relations := [Samples.belongsTo "parent" "nodes" "parent_id" (some "nope"),
    Samples.hasMany "children" "nodes" "parent_id"] }

/-- A registry is accepted although a relation joins by a column that is not there, and then the
relation cannot be counted in any database. -/
theorem localKey_unchecked :
    Registry.ofList [strayNodes] = .ok ⟨[strayNodes]⟩ ∧
      (⟨[strayNodes]⟩ : Registry).validate = .ok () ∧
        (∀ entry ∈ strayNodes.relations, entry.2.name = entry.1) ∧
          ∃ relation, strayNodes.relation "parent" = .ok relation ∧
            (⟨[strayNodes]⟩ : Registry).resource relation.target = .ok strayNodes ∧
              relation.targetField strayNodes strayNodes ∉ strayNodes.columns ∧
                ∀ connection : Sql.Connection,
                  ((Store.get ⟨[strayNodes]⟩ { resource := strayNodes, aggregates := [⟨"parent"⟩] } :
                    Action Sql.Connection _).perform connection).1 =
                    .error (.lookup (.column "nope")) := by
  exact ⟨rfl, rfl, by decide, _, rfl, rfl, by decide +kernel, fun connection => rfl⟩

end ResourceServer
