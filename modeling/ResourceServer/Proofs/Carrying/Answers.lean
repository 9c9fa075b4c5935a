import ResourceServer.Proofs.Batch.Silent
import ResourceServer.Proofs.Carrying.Loading
import ResourceServer.Proofs.Store.Calls
import ResourceServer.Samples.Library

/-!
# Answers with the requested relations

An answer shows entities with the relations that its request asks for, at every depth: none is
missing, none is added, and the guard has nothing to take out.  This holds of everything that an
endpoint loads, whether it lists, shows one entity, or reads back what a batch without hooks has
written.
-/

namespace ResourceServer

/-! ## The guard -/

/-- All beginnings of some paths are allowed, below a beginning in front of them. -/
def AllowsBelow (allowed : List String) (beginning : String) (paths : Set (List String)) : Prop :=
  ∀ path ∈ paths, ∀ names, names ≠ [] → names <+: path →
    allowed.contains (beginning ++ joinSegments names) = true

theorem AllowsBelow.below {allowed : List String} {beginning name : String}
    {paths : Set (List String)} (allows : AllowsBelow allowed beginning paths) :
    AllowsBelow allowed (beginning ++ name ++ ".") (pathsBelow name paths) := by
  rintro rest ⟨_, member⟩ names some isPrefix
  have whole := allows _ member (name :: names) (List.cons_ne_nil _ _)
    (List.cons_prefix_cons.mpr ⟨rfl, isPrefix⟩)
  rw [joinSegments, String.intercalate_cons_of_ne_nil some, ← joinSegments] at whole
  simpa only [String.append_assoc] using whole

theorem allowsBelow_allowedPaths (requests : List RelationRequest) :
    AllowsBelow (allowedPaths requests) "" (pathsOf requests) := by
  rintro _ ⟨request, member, rfl⟩ names some isPrefix
  rw [String.empty_append, List.contains_iff_mem, allowedPaths, List.mem_flatMap]
  have length := List.length_pos_iff.mpr some
  refine ⟨request, member, List.mem_map.mpr ⟨names.length - 1, ?_, ?_⟩⟩
  · have bound := isPrefix.length_le
    rw [List.mem_range]
    omega
  · rw [Nat.sub_add_cancel length, ← List.prefix_iff_eq_take.mp isPrefix]

theorem Related.restrictTo_eq_self {allowed : List String} {beginning : String} {related : Related}
    (each : ∀ entity ∈ related.entities, entity.restrictTo allowed beginning = entity) :
    related.restrictTo allowed beginning = related := by
  cases related with
  | absent => rw [Related.restrictTo]
  | single entity => rw [Related.restrictTo, each entity List.mem_cons_self]
  | many entities =>
      rw [Related.restrictTo, restrictEntities_eq_map]
      exact congrArg Related.many ((List.map_congr_left each).trans (List.map_id entities))

theorem restrictRelations_eq_self {allowed : List String} {beginning : String}
    {relations : List (String × Related)}
    (each : ∀ entry ∈ relations, allowed.contains (beginning ++ entry.1) = true ∧
      entry.2.restrictTo allowed (beginning ++ entry.1 ++ ".") = entry.2) :
    restrictRelations allowed beginning relations = relations := by
  induction relations with
  | nil => rfl
  | cons entry rest induction =>
      rw [List.forall_mem_cons] at each
      rw [restrictRelations, if_pos each.1.1, each.1.2, induction each.2]

/-- Nothing is taken out of an entity that carries allowed paths. -/
theorem Entity.Carries.restrictTo_eq_self {allowed : List String} {paths : Set (List String)}
    {entity : Entity} (carries : entity.Carries paths) {beginning : String}
    (allows : AllowsBelow allowed beginning paths) :
    entity.restrictTo allowed beginning = entity := by
  induction carries generalizing beginning with
  | @intro paths entity once first below induction =>
      have kept : restrictRelations allowed beginning entity.relations = entity.relations := by
        refine restrictRelations_eq_self fun entry isEntry => ⟨?_, ?_⟩
        · obtain ⟨path, member, isHead⟩ := (first entry.1).mp (List.mem_map_of_mem isEntry)
          have isPrefix : [entry.1] <+: path := by
            cases path with
            | nil => cases isHead
            | cons name rest =>
                cases isHead
                exact List.prefix_append [_] rest
          have alone := allows path member [entry.1] (List.cons_ne_nil _ _) isPrefix
          rwa [joinSegments, String.intercalate_singleton] at alone
        · exact Related.restrictTo_eq_self fun related isRelated =>
            induction entry isEntry related isRelated allows.below
      cases entity with
      | mk resource key attributes relations created =>
          rw [Entity.restrictTo]
          exact congrArg (Entity.mk resource key attributes · created) kept

/-- Guarding an entity that carries the requested paths changes nothing. -/
theorem Entity.Carries.guarded {requests : List RelationRequest} {entity : Entity}
    (carries : entity.Carries (pathsOf requests)) : entity.guarded requests = entity :=
  carries.restrictTo_eq_self (allowsBelow_allowedPaths requests)

theorem Entity.Carries.guardEntities {requests : List RelationRequest} {entities : List Entity}
    (carries : ∀ entity ∈ entities, entity.Carries (pathsOf requests)) :
    guardEntities requests entities = entities := by
  unfold ResourceServer.guardEntities
  rw [restrictEntities_eq_map]
  exact (List.map_congr_left fun entity isEntity => (carries entity isEntity).guarded).trans
    (List.map_id entities)

/-! ## Records -/

theorem Record.get?_merge_nodup {record changes : Record} (once : changes.names.Nodup)
    (name : String) :
    (record.merge changes).get? name = (changes.get? name).or (record.get? name) := by
  induction changes generalizing record with
  | nil => rfl
  | cons change rest induction =>
      obtain ⟨changed, value⟩ := change
      rw [names, List.map_cons, List.nodup_cons] at once
      change ((record.set changed value).merge rest).get? name = _
      rw [induction once.2, get?, get?, get?, Record.set, Record.has, Entries.lookup_set,
        Entries.lookup_cons]
      by_cases same : name = changed
      · subst same
        have absent : rest.lookup name = none := by
          rw [← Option.not_isSome_iff_eq_none, Entries.lookup_isSome]
          simpa using once.1
        rw [absent, if_pos rfl, if_pos rfl, Option.none_or, Option.some_or]
      · rw [if_neg same, if_neg same]
        rfl

/-- The record of an entity shows each of its relations, and besides only attributes. -/
theorem Entity.get?_toRecord {entity : Entity}
    (once : (entity.relations.map Prod.fst).Nodup) (name : String) :
    entity.toRecord.get? name =
      ((entity.relations.lookup name).map Related.toValue).or (entity.attributes.get? name) := by
  cases entity with
  | mk resource key attributes relations created =>
      change (relations.map Prod.fst).Nodup at once
      have shown : (relationRecord relations).names = relations.map Prod.fst ∧
          (relationRecord relations).get? name =
            (relations.lookup name).map Related.toValue := by
        clear once
        induction relations with
        | nil => exact ⟨rfl, rfl⟩
        | cons entry rest induction =>
            obtain ⟨first, related⟩ := entry
            refine ⟨congrArg (List.cons first) induction.1, ?_⟩
            rw [relationRecord, Record.get?, Entries.lookup_cons, Entries.lookup_cons]
            split
            · rfl
            · exact induction.2
      rw [Entity.toRecord, Record.get?_merge_nodup (shown.1 ▸ once), shown.2]
      rfl

/-! ## Loading -/

namespace Store

variable {σ : Type} [Store σ] {registry : Registry} {spec : QuerySpec}

/-- What a specification loads are entities that carry the requested paths. -/
structure Carrying (registry : Registry) (requests : List RelationRequest) (spec : QuerySpec) :
    Prop where
  named : registry.KeepsNames
  registered : spec.resource ∈ registry.resources
  addresses : registry.Addresses spec.resource (mergeRequests requests)
  includes : spec.includes = mergeRequests requests

namespace Carrying

variable {requests : List RelationRequest}

theorem hydrate (carrying : Carrying registry requests spec) (rows : List Record) :
    (Store.hydrate registry spec rows : Action σ _).Ensures (fun _ _ => True) fun entities =>
      ∀ entity ∈ entities, entity.Carries (pathsOf requests) := by
  have addresses := carrying.addresses
  rw [← carrying.includes] at addresses
  have carries : (Store.hydrate registry spec rows : Action σ _).Ensures (fun _ _ => True) _ :=
    hydrateTo_carries carrying.named le_rfl carrying.registered addresses rows
  rwa [carrying.includes, pathsOf_mergeRequests] at carries

theorem get (carrying : Carrying registry requests spec) :
    (Store.get registry spec : Action σ _).Ensures (fun _ _ => True) fun entities =>
      ∀ entity ∈ entities, entity.Carries (pathsOf requests) :=
  .bind (.always _) fun rows _ => carrying.hydrate rows

theorem first (carrying : Carrying registry requests spec) :
    (Store.first registry spec : Action σ _).Ensures (fun _ _ => True) fun found =>
      ∀ entity ∈ found, entity.Carries (pathsOf requests) := by
  refine .bind (.always _) fun rows _ => ?_
  refine .bind (carrying.hydrate rows) fun entities carries => ?_
  exact .pure fun entity isFirst => carries entity (List.mem_of_mem_head? isFirst)

theorem paginate (carrying : Carrying registry requests spec) (page perPage : Int) :
    (Store.paginate registry spec page perPage : Action σ _).Ensures (fun _ _ => True) fun page =>
      ∀ entity ∈ page.items, entity.Carries (pathsOf requests) := by
  refine .bind (.always _) fun total _ => ?_
  refine .bind (.always _) fun rows _ => ?_
  refine .bind (carrying.hydrate rows) fun entities carries => ?_
  exact .pure carries

end Carrying

end Store

theorem QuerySpec.ofParameters_includes {resource : Resource} {parameters : QueryParameters}
    {requests : List RelationRequest} {scopes : List Filter.Node} {spec : QuerySpec}
    (done : ofParameters resource parameters requests scopes = .ok spec) :
    spec.resource = resource ∧ spec.includes = mergeRequests requests := by
  obtain ⟨columns, rfl⟩ := QuerySpec.ofParameters_eq_ok done
  exact ⟨rfl, rfl⟩

theorem QuerySpec.ofKeys_includes {resource : Resource} {parameters : QueryParameters}
    {requests : List RelationRequest} {scopes : List Filter.Node} {keys : List Value}
    {spec : QuerySpec} (done : ofKeys resource parameters requests scopes keys = .ok spec) :
    spec.resource = resource ∧ spec.includes = mergeRequests requests := by
  obtain ⟨wide, built, narrowed⟩ := bind_eq_ok.mp done
  obtain ⟨leaf, _, narrowed⟩ := bind_eq_ok.mp narrowed
  cases narrowed
  exact ⟨(ofParameters_includes built).1, (ofParameters_includes built).2⟩

/-! ## Answers -/

/-- An answer whose entities carry exactly some paths: all of a listing, or the one that is shown. -/
inductive Answer.Carries (paths : Set (List String)) : Answer → Prop
  | many {envelope : Envelope} {entities : List Entity}
      (carries : ∀ entity ∈ entities, entity.Carries paths)
      (isData : envelope.data = .list (entities.map fun entity => .object entity.toRecord)) :
      Answer.Carries paths (.envelope envelope)
  | one {envelope : Envelope} {entity : Entity} (carries : entity.Carries paths)
      (isData : envelope.data = .object entity.toRecord) :
      Answer.Carries paths (.envelope envelope)

/-- The relations of an entity are left as they are. -/
def Entity.SameRelations (before after : Entity) : Prop := after.relations = before.relations

instance : Std.Refl Entity.SameRelations := ⟨fun _ => rfl⟩

theorem Entity.SameRelations.carries {paths : Set (List String)} {before after : Entity}
    (same : before.SameRelations after) (carries : before.Carries paths) :
    after.Carries paths := by
  obtain ⟨once, first, below⟩ := carries
  rw [← same] at once first below
  exact .intro once first below

theorem Envelope.dataOf_carries {requests : List RelationRequest} {entities : List Entity}
    (carries : ∀ entity ∈ entities, entity.Carries (pathsOf requests)) :
    dataOf requests entities = .list (entities.map fun entity => .object entity.toRecord) := by
  rw [dataOf, Entity.Carries.guardEntities carries]

/-- The verb of the batch that an operation runs, if it runs one. -/
def Operation.verb? : Operation → Option BatchVerb
  | .index | .search | .view _ => none
  | .store => some .store
  | .update _ => some .update
  | .destroy _ => some .destroy
  | .restore _ => some .restore
  | .batch verb => some verb

namespace Endpoint

variable {σ : Type} [Store σ] {endpoint : Endpoint σ} {requests : List RelationRequest}

/-- The relations that are asked for stand under their names, and lead on from the resource that an
endpoint serves. -/
structure Carrying (endpoint : Endpoint σ) (requests : List RelationRequest) : Prop where
  named : endpoint.registry.KeepsNames
  registered : endpoint.resource ∈ endpoint.registry.resources
  addresses : endpoint.registry.Addresses endpoint.resource (mergeRequests requests)

omit [Store σ] in
theorem Carrying.spec (carrying : endpoint.Carrying requests) {spec : QuerySpec}
    (loads : spec.resource = endpoint.resource ∧ spec.includes = mergeRequests requests) :
    Store.Carrying endpoint.registry requests spec where
  named := carrying.named
  registered := by
    rw [loads.1]
    exact carrying.registered
  addresses := by
    rw [loads.1]
    exact carrying.addresses
  includes := loads.2

variable (carrying : endpoint.Carrying requests) {request : Request}

section Reading

variable (asked : endpoint.readRelations request = .ok requests)

include carrying asked

theorem collection_carries (parameters : QueryParameters) :
    (endpoint.collection request parameters).Ensures (fun _ _ => True)
      (Answer.Carries (pathsOf requests)) := by
  refine .bind (.compute _) fun requested isRequested => ?_
  obtain rfl : requests = requested := Except.ok.inj (asked.symm.trans isRequested)
  refine .bind (.compute _) fun spec built => ?_
  have carrying := carrying.spec (QuerySpec.ofParameters_includes built)
  split
  · refine .bind carrying.get fun entities carries => ?_
    exact .pure (.many carries (Envelope.dataOf_carries carries))
  · refine .bind (carrying.paginate _ _) fun page carries => ?_
    refine .bind (.compute _) fun envelope wrapped => ?_
    obtain ⟨lastPage, _, wrapped⟩ := bind_eq_ok.mp wrapped
    cases wrapped
    exact .pure (.many carries (Envelope.dataOf_carries carries))

theorem view_carries (key : Value)
    (respects : endpoint.binding.authorizer.Respects (fun _ _ => True) Entity.SameRelations) :
    (endpoint.view request key).Ensures (fun _ _ => True) (Answer.Carries (pathsOf requests)) := by
  refine .bind (.compute _) fun key _ => ?_
  refine .bind (.compute _) fun columns _ => ?_
  refine .bind (.compute _) fun aggregates _ => ?_
  refine .bind (.compute _) fun trashed _ => ?_
  refine .bind (.compute _) fun requested isRequested => ?_
  obtain rfl : requests = requested := Except.ok.inj (asked.symm.trans isRequested)
  refine .bind (.compute _) fun spec built => ?_
  refine .bind (carrying.spec (QuerySpec.ofKeys_includes built)).first fun found carries => ?_
  cases found with
  | none => exact .throw _
  | some entity =>
      refine .bind (Authorizer.checkEntity_ensures respects _ _ _) fun shown same => ?_
      have shows := same.carries (carries entity rfl)
      refine .pure (.one shows ?_)
      rw [Envelope.ofEntity, shows.guarded]

end Reading

section Writing

variable {context : BatchContext} (isResource : context.resource = endpoint.resource)
  (isRequested : context.requested = requests)

include carrying isResource isRequested

theorem fetchTargets_carries (keys : List Value) :
    (endpoint.fetchTargets context keys).Ensures (fun _ _ => True) fun entities =>
      ∀ entity ∈ entities, entity.Carries (pathsOf requests) := by
  unfold fetchTargets
  split
  · exact .pure (List.forall_mem_nil _)
  · refine .bind (.compute _) fun spec built => ?_
    rw [isResource, isRequested] at built
    refine .bind (carrying.spec (QuerySpec.ofKeys_includes built)).get fun found carries => ?_
    refine .pure fun entity isTarget => ?_
    obtain ⟨key, _, last⟩ := List.mem_filterMap.mp isTarget
    exact carries entity (List.mem_of_mem_filter (List.mem_of_getLast? last))

theorem refetch_carries (key : Value) :
    (endpoint.refetch context key).Ensures (fun _ _ => True) fun entity =>
      entity.Carries (pathsOf requests) := by
  refine .bind (.compute _) fun spec built => ?_
  rw [isResource, isRequested] at built
  refine .bind (carrying.spec (QuerySpec.ofKeys_includes built)).first fun found carries => ?_
  cases found with
  | none => exact .throw _
  | some entity =>
      have carries := carries entity rfl
      dsimp only
      split
      · refine .pure (Entity.SameRelations.carries ?_ carries)
        cases entity
        rfl
      · exact .pure carries

/-- The targets of a batch carry the requested paths, unless they are yet to be stored. -/
theorem targets_carries {verb : BatchVerb} (existing : verb ≠ .store) {input : BatchInput}
    {plan : BatchPlan} (checked : BatchPlan.ofInput endpoint.binding verb input = .ok plan) :
    (endpoint.targets context plan).Ensures (fun _ _ => True) fun targets =>
      ∀ target ∈ targets, target.entity.Carries (pathsOf requests) := by
  have fetched := fetchTargets_carries carrying isResource isRequested
  cases ofInput_targets existing checked with
  | inl isChanges =>
      obtain ⟨changes, rfl⟩ := isChanges
      refine .bind (fetched _) fun entities carries => .pure fun target isTarget => ?_
      obtain ⟨entity, isEntity, rfl⟩ := List.mem_map.mp isTarget
      exact carries entity isEntity
  | inr isKeys =>
      obtain ⟨keys, rfl⟩ := isKeys
      refine .bind (fetched _) fun entities carries => .pure fun target isTarget => ?_
      obtain ⟨entity, isEntity, rfl⟩ := List.mem_map.mp isTarget
      exact carries entity isEntity

/-- What a batch without hooks serves carries the requested paths: it is read back, or was loaded
before it was removed. -/
theorem serveTarget_carries
    (respects : endpoint.binding.authorizer.Respects (fun _ _ => True) Entity.SameRelations)
    (target : BatchTarget) :
    (endpoint.serveTarget context target).Ensures (fun _ _ => True) fun entity =>
      (context.readsBack = false → target.entity.Carries (pathsOf requests)) →
        entity.Carries (pathsOf requests) := by
  refine .bind (Authorizer.checkEntity_ensures respects _ _ _) fun authorized same => ?_
  refine .bind (.always _) fun key _ => ?_
  unfold BatchSteps.refresh
  split
  · exact (refetch_carries carrying isResource isRequested key).weaken fun _ carries _ => carries
  · rename_i removed
    rw [Bool.not_eq_true] at removed
    refine .pure fun loaded => Entity.SameRelations.carries ?_ (same.carries (loaded removed))
    unfold BatchTarget.filled
    split
    · cases authorized
      rfl
    · rfl

/-- All that a batch without hooks serves carries the requested paths. -/
theorem serveAll_carries
    (respects : endpoint.binding.authorizer.Respects (fun _ _ => True) Entity.SameRelations)
    {input : BatchInput} {plan : BatchPlan}
    (checked : BatchPlan.ofInput endpoint.binding context.verb input = .ok plan)
    (noneDone : context.entities = []) :
    (endpoint.serveAll context plan).Ensures (fun _ _ => True) fun outcome =>
      outcome.response = none ∧ outcome.requested = requests ∧
        ∀ entity ∈ outcome.entities, entity.Carries (pathsOf requests) := by
  have aims : (endpoint.targets context plan).Ensures (fun _ _ => True) fun targets =>
      context.readsBack = false → ∀ target ∈ targets, target.entity.Carries (pathsOf requests) := by
    cases removes : context.readsBack with
    | true => exact (Action.Ensures.always _).weaken fun _ _ => nofun
    | false =>
        have existing : context.verb ≠ .store := by
          intro stores
          rw [BatchContext.readsBack, stores] at removes
          cases removes
        exact (targets_carries carrying isResource isRequested existing checked).weaken
          fun _ carries _ => carries
  refine (serveAll_ensures aims (serveTarget_carries carrying isResource isRequested respects)
    noneDone).weaken ?_
  rintro outcome ⟨noResponse, isAsked, targets, loaded, served⟩
  refine ⟨noResponse, isAsked.trans isRequested, fun entity isEntity => ?_⟩
  obtain ⟨target, isTarget, serves⟩ := exists_of_mem_right served isEntity
  exact serves fun removes => loaded removes target isTarget

end Writing

include carrying in
/-- A batch without hooks yields entities that carry the requested paths, and no response. -/
theorem runBatch_carries (asked : endpoint.readRelations request = .ok requests)
    (respects : endpoint.binding.authorizer.Respects (fun _ _ => True) Entity.SameRelations)
    {verb : BatchVerb} (silent : endpoint.binding.hooksFor verb = .silent) (input : BatchInput) :
    (endpoint.runBatch verb request input).Ensures (fun _ _ => True) fun outcome =>
      outcome.response = none ∧ outcome.requested = requests ∧
        ∀ entity ∈ outcome.entities, entity.Carries (pathsOf requests) := by
  refine runBatch_ensures silent fun context plan prepared => ?_
  obtain ⟨checked, parameters, requested, force, _, isAsked, rfl⟩ := prepareBatch_eq_ok prepared
  obtain rfl : requests = requested := Except.ok.inj (asked.symm.trans isAsked)
  exact serveAll_carries carrying rfl rfl respects checked rfl

omit [Store σ] in
theorem answerSingle_carries (endpoint : Endpoint σ) {outcome : BatchOutcome} (key : Value)
    (noResponse : outcome.response = none) (isRequested : outcome.requested = requests)
    (carries : ∀ entity ∈ outcome.entities, entity.Carries (pathsOf requests)) :
    (endpoint.answerSingle key outcome).Ensures (fun _ _ => True)
      (Answer.Carries (pathsOf requests)) := by
  unfold answerSingle
  rw [noResponse]
  split
  · cases ‹none = some _›
  · rename_i entity _ _ isFirst
    have shows := carries entity (isFirst ▸ List.mem_cons_self)
    refine .pure (.one shows ?_)
    rw [Envelope.ofEntity, isRequested, shows.guarded]
  · exact .throw _

theorem answerMany_carries {outcome : BatchOutcome}
    (noResponse : outcome.response = none) (isRequested : outcome.requested = requests)
    (carries : ∀ entity ∈ outcome.entities, entity.Carries (pathsOf requests)) :
    (answerMany outcome).Carries (pathsOf requests) := by
  unfold answerMany
  rw [noResponse, isRequested]
  exact .many carries (Envelope.dataOf_carries carries)

include carrying in
/-- Whatever an operation answers, unless hooks are called, its entities carry the requested
paths. -/
theorem perform_carries (asked : endpoint.readRelations request = .ok requests)
    (respects : endpoint.binding.authorizer.Respects (fun _ _ => True) Entity.SameRelations)
    (operation : Operation)
    (silent : ∀ verb ∈ operation.verb?, endpoint.binding.hooksFor verb = .silent) :
    (operation.perform endpoint request).Ensures (fun _ _ => True)
      (Answer.Carries (pathsOf requests)) := by
  have single : ∀ verb ∈ operation.verb?, ∀ key input,
      (endpoint.runBatch verb request input >>= endpoint.answerSingle key).Ensures
        (fun _ _ => True) (Answer.Carries (pathsOf requests)) := by
    intro verb isVerb key input
    refine .bind (runBatch_carries carrying asked respects (silent verb isVerb) input) ?_
    rintro outcome ⟨noResponse, isRequested, carries⟩
    exact endpoint.answerSingle_carries key noResponse isRequested carries
  have many : ∀ verb ∈ operation.verb?, ∀ input,
      (endpoint.runBatch verb request input >>= fun outcome => pure (answerMany outcome)).Ensures
        (fun _ _ => True) (Answer.Carries (pathsOf requests)) := by
    intro verb isVerb input
    refine .bind (runBatch_carries carrying asked respects (silent verb isVerb) input) ?_
    rintro outcome ⟨noResponse, isRequested, carries⟩
    exact .pure (answerMany_carries noResponse isRequested carries)
  cases operation with
  | index =>
      refine .bind (.always _) fun _ _ => ?_
      exact .bind (.compute _) fun parameters _ => collection_carries carrying asked parameters
  | search =>
      refine .bind (.always _) fun _ _ => ?_
      exact .bind (.compute _) fun parameters _ => collection_carries carrying asked parameters
  | view key => exact view_carries carrying asked key respects
  | store => exact .bind (.always _) fun _ _ => single .store rfl _ _
  | update key =>
      change (endpoint.update request key).Ensures _ _
      unfold update
      split
      · exact .throw _
      · exact single .update rfl _ _
  | destroy key => exact single .destroy rfl _ _
  | restore key => exact single .restore rfl _ _
  | batch verb =>
      cases verb with
      | store => exact .bind (.always _) fun _ _ => many .store rfl _
      | update => exact many .update rfl _
      | destroy => exact many .destroy rfl _
      | restore => exact many .restore rfl _

/-- Whatever relations a request is granted, all that is loaded for it carries exactly these: the
guard takes nothing out, records show them beside the attributes, and so does every answer that is
given without hooks.  A path that ends in a dot must not be the name of a relation. -/
theorem answers_carry (named : endpoint.registry.KeepsNames)
    (registered : endpoint.resource ∈ endpoint.registry.resources)
    (asked : endpoint.readRelations request = .ok requests)
    (apart : ∀ asked ∈ requests, asked.EndsInDot → endpoint.registry.TellsPathsApart) :
    (∀ spec : QuerySpec, spec.resource = endpoint.resource → spec.includes = [] →
      (Store.get endpoint.registry (spec.withRelations requests) : Action σ _).Ensures
        (fun _ _ => True) fun entities => ∀ entity ∈ entities, entity.Carries (pathsOf requests)) ∧
    (∀ entity : Entity, entity.Carries (pathsOf requests) →
      entity.guarded requests = entity ∧ ∀ name, entity.toRecord.get? name =
        ((entity.relations.lookup name).map Related.toValue).or (entity.attributes.get? name)) ∧
    (endpoint.binding.authorizer.Respects (fun _ _ => True) Entity.SameRelations →
      ∀ operation : Operation,
        (∀ verb ∈ operation.verb?, endpoint.binding.hooksFor verb = .silent) →
          (operation.perform endpoint request).Ensures (fun _ _ => True)
            (Answer.Carries (pathsOf requests))) := by
  have carrying : endpoint.Carrying requests := ⟨named, registered, .ofRequests asked apart⟩
  refine ⟨fun spec isResource noIncludes => ?_, fun entity carries => ?_,
    perform_carries carrying asked⟩
  · have includes : (spec.withRelations requests).includes = mergeRequests requests := by
      rw [QuerySpec.withRelations, noIncludes, List.nil_append]
    exact Store.Carrying.get (carrying.spec ⟨isResource, includes⟩)
  · have kept := carries.guarded
    obtain ⟨once, _, _⟩ := carries
    exact ⟨kept, Entity.get?_toRecord once⟩

end Endpoint

/-- The endpoint of books. -/
def booksEndpoint : Endpoint Memory where
  registry := ⟨Samples.Library.resources⟩
  now := Samples.Library.trashedAt
  binding := { resource := Samples.Library.books }

/-- A request for books with their labels, as far as the books of these. -/
def asFarAsBooks : Request where
  query := [("include", .text "labels.book")]

/-- A book with a label. -/
def labelledBook : Memory :=
  StoreCall.after [.insert Samples.Library.books [("id", .int 10), ("isbn", .text "x")],
    .insert Samples.Library.labels [("id", .int 1), ("book_isbn", .text "x")]] {}

theorem answers_carry_books :
    booksEndpoint.registry.KeepsNames ∧ booksEndpoint.resource ∈ booksEndpoint.registry.resources ∧
      booksEndpoint.readRelations asFarAsBooks = .ok [{ path := "labels.book" }] ∧
        ∃ answer after, (Operation.index.perform booksEndpoint asFarAsBooks).perform labelledBook =
          (.ok answer, after) ∧ answer.Carries (pathsOf [{ path := "labels.book" }]) := by
  have named : booksEndpoint.registry.KeepsNames := by decide +kernel
  have registered : booksEndpoint.resource ∈ booksEndpoint.registry.resources :=
    List.mem_cons_of_mem _ List.mem_cons_self
  have asked : booksEndpoint.readRelations asFarAsBooks = .ok [{ path := "labels.book" }] := by
    with_unfolding_all rfl
  have respects : booksEndpoint.binding.authorizer.Respects (fun _ _ => True)
      Entity.SameRelations := by
    intro ability subject user
    refine .pure fun entity changed isSubject isLeft => ?_
    rw [isSubject] at isLeft
    cases isLeft
    rfl
  obtain ⟨_, _, answers⟩ := Endpoint.answers_carry named registered asked (by decide +kernel)
  have carries := answers respects .index nofun labelledBook
  have answered : ((Operation.index.perform booksEndpoint asFarAsBooks).perform
      labelledBook).1.isOk = true := by
    decide +kernel
  cases run : (Operation.index.perform booksEndpoint asFarAsBooks).perform labelledBook with
  | mk result after =>
      rw [run] at carries answered
      cases result with
      | error error => cases answered
      | ok answer => exact ⟨named, registered, asked, answer, after, rfl, carries.2 answer rfl⟩

/-! ## Where a dot hides a relation -/

/-- Nodes with a relation under the empty name, and with one whose name is the path to it. -/
def overlapping : Resource := { Samples.Library.nodes with
  includes := ["*"]
  aggregates := []
  relations := [Samples.belongsTo "a" "nodes" "parent_id", Samples.belongsTo "" "nodes" "parent_id",
    Samples.belongsTo "a." "nodes" "parent_id"] }

/-- The endpoint of these nodes. -/
def overlappingEndpoint : Endpoint Memory where
  registry := ⟨[overlapping]⟩
  now := Samples.Library.trashedAt
  binding := { resource := overlapping }

/-- A request for what the path that ends in a dot leads to. -/
def pastDot : Request where
  query := [("include", .text "a.")]

/-- The attributes of a node that is its own parent. -/
def loopAttributes : Record :=
  [("id", .int 1), ("name", .text "node"), ("parent_id", .int 1), ("rank", .null)]

/-- The node with the relation that is loaded for the path that ends in a dot. -/
def loopNode : Entity :=
  .mk "nodes" (.int 1) loopAttributes [("a.", .single (.ofRow "nodes" (.int 1) loopAttributes))]
    false

/-- A path that ends in a dot is accepted as two relations in a row.  Neither is loaded, but another
one under the name of the path. -/
theorem dotted_relation_uncarried :
    overlappingEndpoint.registry.validate = .ok () ∧ overlappingEndpoint.registry.KeepsNames ∧
      overlappingEndpoint.resource ∈ overlappingEndpoint.registry.resources ∧
        overlappingEndpoint.readRelations pastDot = .ok [{ path := "a." }] ∧
          ((Store.get overlappingEndpoint.registry
            (({ resource := overlapping } : QuerySpec).withRelations [{ path := "a." }])).perform
              (StoreCall.after [.insert overlapping [("id", .int 1), ("parent_id", .int 1)]]
                ({} : Memory))).1 = .ok [loopNode] ∧
            ¬ loopNode.Carries (pathsOf [{ path := "a." }]) := by
  have segments : ({ path := "a." } : RelationRequest).segments = ["a", ""] := by
    with_unfolding_all rfl
  refine ⟨rfl, by decide +kernel, List.mem_cons_self, ?_, ?_, ?_⟩
  · with_unfolding_all rfl
  · with_unfolding_all rfl
  · rintro ⟨_, first, _⟩
    have isLoaded := (first "a").mpr ⟨["a", ""], ⟨_, List.mem_cons_self, segments⟩, rfl⟩
    revert isLoaded
    decide

end ResourceServer
