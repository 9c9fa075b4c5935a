import ResourceServer.Proofs.Guard
import ResourceServer.Proofs.Memory.Reading
import ResourceServer.Proofs.Visibility.Rows

/-!
# Entities that agree in what is visible

Relations are loaded by columns that are visible.  From alike stores, alike entities get alike
related entities: the same keys in the same order, at every depth.  The conditions of a request
are on the resource that its path leads to, so they are carried along the path, step by step.
-/

namespace ResourceServer

/-! ## Entities -/

mutual

/-- Two entities of one resource with the same key, whose attributes agree in what is visible
and whose loaded relations lead to alike entities. -/
inductive Entity.Alike (visible : Visibility) : Entity → Entity → Prop
  | mk {resource : String} {key : Value} {created : Bool} {attributes others : Record}
      {relations otherRelations : List (String × Related)}
      (agree : Record.AgreeOn (visible resource) attributes others)
      (below : RelationsAlike visible relations otherRelations) :
      Entity.Alike visible (.mk resource key attributes relations created)
        (.mk resource key others otherRelations created)

/-- Relations of the same names in the same order that lead to alike entities. -/
inductive RelationsAlike (visible : Visibility) :
    List (String × Related) → List (String × Related) → Prop
  | nil : RelationsAlike visible [] []
  | cons (name : String) {related other : Related} {rest others : List (String × Related)}
      (first : Related.Alike visible related other) (below : RelationsAlike visible rest others) :
      RelationsAlike visible ((name, related) :: rest) ((name, other) :: others)

/-- What relations lead to when the entities are alike. -/
inductive Related.Alike (visible : Visibility) : Related → Related → Prop
  | absent : Related.Alike visible .absent .absent
  | single {entity other : Entity} (alike : Entity.Alike visible entity other) :
      Related.Alike visible (.single entity) (.single other)
  | many {entities others : List Entity} (alike : EntitiesAlike visible entities others) :
      Related.Alike visible (.many entities) (.many others)

/-- Entities that are alike one by one. -/
inductive EntitiesAlike (visible : Visibility) : List Entity → List Entity → Prop
  | nil : EntitiesAlike visible [] []
  | cons {entity other : Entity} {rest others : List Entity}
      (first : Entity.Alike visible entity other) (alike : EntitiesAlike visible rest others) :
      EntitiesAlike visible (entity :: rest) (other :: others)

end

variable {visible : Visibility}

theorem entitiesAlike_iff {entities others : List Entity} :
    EntitiesAlike visible entities others ↔
      List.Forall₂ (Entity.Alike visible) entities others := by
  constructor
  · intro alike
    induction entities generalizing others with
    | nil =>
        cases alike
        exact .nil
    | cons entity rest induction =>
        cases alike with
        | cons first alike => exact .cons first (induction alike)
  · intro alike
    induction alike with
    | nil => exact .nil
    | cons first _ induction => exact .cons first induction

namespace RelationsAlike

variable {relations others : List (String × Related)} {name : String} {related other : Related}

theorem any_eq (alike : RelationsAlike visible relations others) (name : String) :
    relations.any (·.1 == name) = others.any (·.1 == name) := by
  induction relations generalizing others with
  | nil =>
      cases alike
      rfl
  | cons relation rest induction =>
      cases alike with
      | cons _ _ below => rw [List.any_cons, List.any_cons, induction below]

theorem overwrite (alike : RelationsAlike visible relations others)
    (new : related.Alike visible other) :
    RelationsAlike visible
      (relations.map fun entry => if entry.1 == name then (name, related) else entry)
      (others.map fun entry => if entry.1 == name then (name, other) else entry) := by
  induction relations generalizing others with
  | nil =>
      cases alike
      exact .nil
  | cons relation rest induction =>
      cases alike with
      | cons _ first below =>
          rw [List.map_cons, List.map_cons]
          dsimp only
          split
          · exact .cons name new (induction below)
          · exact .cons _ first (induction below)

theorem append (alike : RelationsAlike visible relations others)
    (new : related.Alike visible other) :
    RelationsAlike visible (relations ++ [(name, related)]) (others ++ [(name, other)]) := by
  induction relations generalizing others with
  | nil =>
      cases alike
      exact .cons name new .nil
  | cons relation rest induction =>
      cases alike with
      | cons _ first below => exact .cons _ first (induction below)

theorem set (alike : RelationsAlike visible relations others) (new : related.Alike visible other)
    (name : String) :
    RelationsAlike visible
      (if relations.any (·.1 == name) then
        relations.map fun entry => if entry.1 == name then (name, related) else entry
      else relations ++ [(name, related)])
      (if others.any (·.1 == name) then
        others.map fun entry => if entry.1 == name then (name, other) else entry
      else others ++ [(name, other)]) := by
  rw [alike.any_eq name]
  by_cases present : others.any (·.1 == name) = true
  · rw [if_pos present, if_pos present]
    exact alike.overwrite new
  · rw [if_neg present, if_neg present]
    exact alike.append new

end RelationsAlike

/-- Alike entities of the resource of a name. -/
structure Entity.AlikeIn (visible : Visibility) (resource : String) (entity other : Entity) :
    Prop where
  alike : entity.Alike visible other
  named : entity.resource = resource

namespace Entity.AlikeIn

variable {entity other : Entity} {resource field : String}

theorem get (alikeIn : AlikeIn visible resource entity other)
    (isVisible : visible resource field) : entity.get field = other.get field := by
  obtain ⟨alike, rfl⟩ := alikeIn
  cases alike with
  | mk agree below => exact agree.get isVisible

/-- Attaching what is alike to entities that are alike. -/
theorem attach (alikeIn : AlikeIn visible resource entity other) {related otherRelated : Related}
    (new : related.Alike visible otherRelated) (name : String) :
    AlikeIn visible resource (entity.attach name related) (other.attach name otherRelated) := by
  obtain ⟨alike, rfl⟩ := alikeIn
  cases alike with
  | mk agree below => exact ⟨.mk agree (below.set new name), rfl⟩

end Entity.AlikeIn

/-! ## One relation -/

section Relation

variable {entities others : List Entity} {resource field : String}

theorem joiningValues_congr
    (alike : List.Forall₂ (Entity.AlikeIn visible resource) entities others)
    (isVisible : visible resource field) :
    joiningValues field entities = joiningValues field others := by
  unfold joiningValues
  rw [map_eq_of_forall₂ alike fun _ _ alikeIn => alikeIn.get isVisible]

theorem matchesOf_alike
    (alike : List.Forall₂ (Entity.AlikeIn visible resource) entities others)
    (isVisible : visible resource field) (value : Value) :
    List.Forall₂ (Entity.AlikeIn visible resource) (matchesOf field value entities)
      (matchesOf field value others) := by
  unfold matchesOf
  split
  · exact .nil
  · exact forall₂_filter alike fun _ _ alikeIn => by rw [alikeIn.get isVisible]

theorem Relation.related_alike (relation : Relation) (window : Option RelationWindow)
    (alike : List.Forall₂ (Entity.Alike visible) entities others) :
    (relation.related window entities).Alike visible (relation.related window others) := by
  unfold related
  split
  · cases window with
    | none => exact .many (entitiesAlike_iff.mpr alike)
    | some window => exact .many (entitiesAlike_iff.mpr (forall₂_sliceBetween alike _ _))
  · cases alike with
    | nil => exact .absent
    | cons first _ => exact .single first

end Relation

/-! ## What a request asks for along its path -/

/-- The conditions of a request name no fields of the resource that it leads to but visible
ones, and sort by these and by its counts. -/
structure RelationRequest.NamesVisible (visible : Visibility) (target : Resource)
    (request : RelationRequest) : Prop where
  filters : ∀ node ∈ request.filters, ∀ field ∈ node.fields, visible target.name field
  sorts : ∀ directive ∈ request.sort,
    directive.field ∈ target.aggregates.map (fun name => (AggregateRequest.mk name).alias) ∨
      visible target.name directive.field

/-- The path of a request leads to a resource, and the conditions of the request name visible
fields there. -/
def RelationRequest.LeadsVisible (registry : Registry) (visible : Visibility) (owner : Resource)
    (request : RelationRequest) : Prop :=
  ∃ hops hop, registry.follow owner request.segments = .ok hops ∧ hops.getLast? = some hop ∧
    request.NamesVisible visible hop.target

/-- Where a relation leads to a resource with a relation under the empty name, no other one is
declared under its name with a dot behind it: the name of that one would be the path to the
relation under the empty name. -/
def Registry.TellsPathsApart (registry : Registry) : Prop :=
  ∀ owner ∈ registry.resources, ∀ entry ∈ owner.relations, ∀ target,
    registry.resource entry.2.target = .ok target → target.relations.lookup "" ≠ none →
      owner.relations.lookup (entry.1 ++ ".") = none

instance (registry : Registry) : Decidable registry.TellsPathsApart :=
  inferInstanceAs (Decidable (∀ owner ∈ registry.resources, ∀ entry ∈ owner.relations, ∀ target,
    registry.resource entry.2.target = .ok target → target.relations.lookup "" ≠ none →
      owner.relations.lookup (entry.1 ++ ".") = none))

section Steps

variable {registry : Registry} {owner target : Resource} {relation : Relation}

/-- A path leads on from the target of its first relation. -/
theorem follow_cons_eq_ok {segment : String} {rest : List String} {hops : List Hop} :
    registry.follow owner (segment :: rest) = .ok hops ↔
      ∃ relation target more, owner.relation segment = .ok relation ∧
        registry.resource relation.target = .ok target ∧ registry.follow target rest = .ok more ∧
          hops = ⟨relation, target⟩ :: more := by
  constructor
  · intro followed
    rw [Registry.follow] at followed
    split at followed
    · cases followed
    · rename_i relation declared
      split at followed
      · cases followed
      · rename_i target known
        refine ⟨relation, target, ?_⟩
        rw [Resource.relation, declared, Registry.resource, known]
        cases onward : registry.follow target rest with
        | error fault =>
            rw [onward] at followed
            cases followed
        | ok more =>
            rw [onward] at followed
            cases followed
            exact ⟨more, rfl, rfl, rfl, rfl⟩
  · rintro ⟨relation, target, more, declared, known, followed, rfl⟩
    unfold Resource.relation at declared
    unfold Registry.resource at known
    split at declared
    · rename_i found
      cases declared
      split at known
      · rename_i registered
        cases known
        simp only [Registry.follow, found, registered, followed, bind, Except.bind]
      · cases known
    · cases declared

theorem pathSegments_eq_cons (path : String) :
    pathSegments path = RelationStep.head path :: (pathSegments path).drop 1 := by
  unfold RelationStep.head
  cases segments : pathSegments path with
  | nil => cases pathSegments_ne_nil path segments
  | cons first rest => rfl

/-- A path with nothing behind its first dot has no dot, or ends in the only one. -/
theorem pathSegments_of_tail_empty {path : String}
    (ends : (RelationStep.tail path).isEmpty = true) :
    pathSegments path = [path] ∨
      ∃ first, pathSegments path = [first, ""] ∧ path = first ++ "." := by
  have whole := joinSegments_pathSegments path
  have cut := pathSegments_eq_cons path
  rw [RelationStep.tail, String.isEmpty_iff] at ends
  generalize RelationStep.head path = first at cut
  cases rest : (pathSegments path).drop 1 with
  | nil =>
      rw [rest] at cut
      rw [cut, joinSegments, String.intercalate_singleton] at whole
      rw [cut, whole]
      exact .inl rfl
  | cons second more =>
      have split := pathSegments_joinSegments (List.cons_ne_nil second more) fun segment member =>
        dot_not_mem_pathSegments path segment (List.mem_of_mem_drop (rest ▸ member))
      rw [rest] at ends cut
      rw [ends] at split
      have isEmpty : second :: more = [""] := split.symm
      rw [isEmpty] at cut
      rw [cut] at whole
      exact .inr ⟨first, cut, by simpa [joinSegments] using whole.symm⟩

/-- The request for a relation itself has the name of the relation for its path, and its
conditions are on the target of the relation. -/
theorem directRequest_leads (apart : registry.TellsPathsApart)
    (registered : owner ∈ registry.resources) {requests : List RelationRequest} {name : String}
    (leads : ∀ request ∈ requests, request.LeadsVisible registry visible owner)
    (declared : owner.relation (RelationStep.directRequest name requests).path = .ok relation)
    (known : registry.resource relation.target = .ok target) :
    (RelationStep.directRequest name requests).path = name ∧
      (RelationStep.directRequest name requests).NamesVisible visible target := by
  unfold RelationStep.directRequest at declared ⊢
  cases last : (requests.filter fun request => RelationStep.head request.path == name &&
      (RelationStep.tail request.path).isEmpty).getLast? with
  | none => exact ⟨rfl, nofun, nofun⟩
  | some request =>
      rw [last, Option.getD_some] at declared
      obtain ⟨member, starts⟩ := List.mem_filter.mp (List.mem_of_getLast? last)
      rw [Bool.and_eq_true, beq_iff_eq] at starts
      obtain ⟨isHead, ends⟩ := starts
      obtain ⟨hops, hop, followed, atEnd, names⟩ := leads request member
      rw [RelationRequest.segments] at followed
      cases pathSegments_of_tail_empty ends with
      | inl single =>
          rw [single] at followed
          obtain ⟨first, next, more, isFirst, isNext, onward, rfl⟩ := follow_cons_eq_ok.mp followed
          cases onward
          cases atEnd
          obtain rfl : relation = first := Except.ok.inj (declared.symm.trans isFirst)
          obtain rfl : target = next := Except.ok.inj (known.symm.trans isNext)
          rw [RelationStep.head, single] at isHead
          exact ⟨isHead, names⟩
      | inr double =>
          -- The path leads on by the empty name, so its own name belongs to no relation.
          obtain ⟨segment, double, isPath⟩ := double
          rw [double] at followed
          obtain ⟨first, middle, more, isFirst, isMiddle, onward, _⟩ :=
            follow_cons_eq_ok.mp followed
          obtain ⟨second, _, _, isSecond, _⟩ := follow_cons_eq_ok.mp onward
          have undeclared := apart owner registered _ (Resource.mem_of_relation isFirst) middle
            isMiddle fun none => by
              rw [Resource.relation, none] at isSecond
              cases isSecond
          rw [isPath, Resource.relation, undeclared] at declared
          cases declared

/-- Seen from the target of a relation, what is asked for below it leads where it led before. -/
theorem belowRequests_leadVisible {requests : List RelationRequest} {name : String}
    (leads : ∀ request ∈ requests, request.LeadsVisible registry visible owner)
    (declared : owner.relation name = .ok relation)
    (known : registry.resource relation.target = .ok target) :
    ∀ request ∈ RelationStep.belowRequests name requests,
      request.LeadsVisible registry visible target := by
  intro below isBelow
  obtain ⟨request, isAbove, rfl⟩ := List.mem_map.mp isBelow
  obtain ⟨member, starts⟩ := List.mem_filter.mp isAbove
  rw [Bool.and_eq_true, beq_iff_eq, Bool.not_eq_true'] at starts
  obtain ⟨rfl, someTail⟩ := starts
  obtain ⟨hops, hop, followed, atEnd, names⟩ := leads request member
  rw [RelationRequest.segments, pathSegments_eq_cons] at followed
  obtain ⟨first, next, more, isFirst, isNext, onward, rfl⟩ := follow_cons_eq_ok.mp followed
  obtain rfl : relation = first := Except.ok.inj (declared.symm.trans isFirst)
  obtain rfl : target = next := Except.ok.inj (known.symm.trans isNext)
  rw [← RelationStep.pathSegments_tail someTail] at onward
  refine ⟨more, hop, onward, ?_, names.filters, names.sorts⟩
  have goesOn : more ≠ [] := by
    rintro rfl
    rw [pathSegments_eq_cons] at onward
    obtain ⟨_, _, _, _, _, _, some⟩ := follow_cons_eq_ok.mp onward
    cases some
  obtain ⟨second, rest, rfl⟩ := List.exists_cons_of_ne_nil goesOn
  rwa [List.getLast?_cons_cons] at atEnd

end Steps

theorem Filter.Leaf.make_field {field : String} {operator : Operator} {operand : Value}
    {combinator : Combinator} {leaf : Filter.Leaf}
    (made : make field operator operand combinator = .ok leaf) : leaf.field = field := by
  unfold make at made
  split at made
  · split at made
    · cases made
      rfl
    · cases made
  · cases made

/-- The query for related entities names visible fields: the one that they are joined by and
those of the request. -/
theorem relatedQuery_namesVisible {target : Resource} {field : String} {values : List Value}
    {request : RelationRequest} {below : List RelationRequest} {query : QuerySpec}
    (names : request.NamesVisible visible target) (isVisible : visible target.name field)
    (isQuery : relatedQuery target field values request below = .ok query) :
    query.resource = target ∧ query.NamesVisible visible := by
  rw [relatedQuery_eq] at isQuery
  cases made : Filter.Leaf.make field .isIn (.list values) with
  | error error =>
      rw [made] at isQuery
      cases isQuery
  | ok leaf =>
      rw [made] at isQuery
      cases isQuery
      refine ⟨rfl, ?_, nofun, ?_⟩
      · intro node member other isField
        cases List.mem_cons.mp member with
        | inl isLeaf =>
            rw [isLeaf, Filter.Node.fields, List.mem_singleton, Filter.Leaf.make_field made]
              at isField
            rw [isField]
            exact isVisible
        | inr inFilters => exact names.filters node (by simpa using inFilters) other isField
      · intro directive member
        cases names.sorts directive member with
        | inr isVisible => exact .inr isVisible
        | inl isCount =>
            obtain ⟨name, declared, isAlias⟩ := List.mem_map.mp isCount
            refine .inl (List.mem_map.mpr ⟨⟨name⟩, List.mem_filter.mpr ⟨?_, ?_⟩, isAlias⟩)
            · exact List.mem_map.mpr ⟨name, declared, rfl⟩
            · exact List.any_eq_true.mpr ⟨directive, member, beq_iff_eq.mpr isAlias.symm⟩

/-! ## Loading -/

/-- Two states whose stores hold the same rows but for fields that are not visible. -/
def StoresAlike {τ : Type} (visible : Visibility) (left right : Memory × τ) : Prop :=
  left.1.contents.Alike visible right.1.contents ∧ left.2 = right.2

namespace Store

variable {registry : Registry}

theorem entitiesOf_corresponds (exposes : registry.Exposes visible) {resource : Resource}
    (registered : resource ∈ registry.resources) {rows others : List Record}
    (agree : List.Forall₂ (Record.AgreeOn (visible resource.name)) rows others) :
    Corresponds (List.Forall₂ (Entity.AlikeIn visible resource.name))
      (entitiesOf resource rows) (entitiesOf resource others) := by
  have isKey := exposes.key resource registered
  have keyed : rows.any (fun row => !row.has resource.keyName) =
      others.any fun row => !row.has resource.keyName :=
    any_eq_of_forall₂ agree fun _ _ agree => by rw [agree.has isKey]
  unfold entitiesOf
  rw [keyed]
  split
  · exact .error _
  · refine .ok ?_
    rw [List.forall₂_map_left_iff, List.forall₂_map_right_iff]
    refine agree.imp fun row other agree => ⟨?_, rfl⟩
    unfold entityOf Entity.ofRow
    rw [agree.get isKey]
    exact .mk agree .nil

/-- One relation is loaded alike for entities that are alike. -/
theorem loadRelation_parallel {σ : Type} {states : σ → σ → Prop}
    {getRelated : QuerySpec → Action σ (List Entity)} (exposes : registry.Exposes visible)
    {owner : Resource} (registered : owner ∈ registry.resources) {step : RelationStep}
    (loads : ∀ relation target values query, owner.relation step.request.path = .ok relation →
      registry.resource relation.target = .ok target →
        relatedQuery target (relation.targetField owner target) values step.request step.below =
            .ok query →
          Action.Parallel states (List.Forall₂ (Entity.AlikeIn visible target.name))
            (getRelated query) (getRelated query))
    {entities others : List Entity}
    (alike : List.Forall₂ (Entity.AlikeIn visible owner.name) entities others) :
    Action.Parallel states (List.Forall₂ (Entity.AlikeIn visible owner.name))
      (loadRelation getRelated registry owner entities step)
      (loadRelation getRelated registry owner others step) := by
  unfold loadRelation
  refine .compute _ fun relation declared => ?_
  refine .compute _ fun target known => ?_
  obtain ⟨ownerVisible, targetVisible⟩ := exposes.joining owner registered _
    (Resource.mem_of_relation declared) target known
  have attached {related otherRelated : List Entity}
      (found : List.Forall₂ (Entity.AlikeIn visible target.name) related otherRelated) :
      List.Forall₂ (Entity.AlikeIn visible owner.name)
        (entities.map fun entity => entity.attach relation.name (relation.related
          step.request.window (matchesOf (relation.targetField owner target)
            (entity.get (relation.ownerField owner target)) related)))
        (others.map fun entity => entity.attach relation.name (relation.related
          step.request.window (matchesOf (relation.targetField owner target)
            (entity.get (relation.ownerField owner target)) otherRelated))) := by
    rw [List.forall₂_map_left_iff, List.forall₂_map_right_iff]
    refine alike.imp fun entity other alikeIn => alikeIn.attach ?_ relation.name
    rw [alikeIn.get ownerVisible]
    have picked := matchesOf_alike found targetVisible
      (other.get (relation.ownerField owner target))
    exact relation.related_alike _ (picked.imp fun _ _ alikeIn => alikeIn.alike)
  dsimp only
  rw [joiningValues_congr alike ownerVisible]
  split
  · exact .pure (attached .nil)
  · refine .compute _ fun query isQuery => ?_
    exact .bind (loads relation target _ query declared known isQuery) fun _ _ found =>
      .pure (attached found)

section Memory

variable {τ : Type}

theorem fetchRows_parallel (exposes : registry.Exposes visible) {spec : QuerySpec}
    (registered : spec.resource ∈ registry.resources) (names : spec.NamesVisible visible)
    (offset limit : Option Int) :
    Action.Parallel (StoresAlike (τ := τ) visible)
      (List.Forall₂ (Record.AgreeOn (visible spec.resource.name)))
      (fetchRows registry spec offset limit) (fetchRows registry spec offset limit) := by
  intro first second alike
  have fetched := Contents.fetchRows_corresponds exposes alike.1 registered names offset limit
  refine ⟨fetched.weaken fun _ _ agree => ?_, alike⟩
  exact agree.imp fun _ _ agree => agree.weaken fun _ => .inr

/-- Relations are loaded alike up to any depth, by induction on it: the query for the entities
that a relation leads to names visible fields, and so do the requests below it. -/
theorem hydrateTo_parallel (exposes : registry.Exposes visible)
    (apart : registry.TellsPathsApart) (depth : Nat) {spec : QuerySpec}
    (registered : spec.resource ∈ registry.resources)
    (leads : ∀ request ∈ spec.includes, request.LeadsVisible registry visible spec.resource)
    {rows others : List Record}
    (agree : List.Forall₂ (Record.AgreeOn (visible spec.resource.name)) rows others) :
    Action.Parallel (StoresAlike (τ := τ) visible)
      (List.Forall₂ (Entity.AlikeIn visible spec.resource.name))
      (hydrateTo registry depth spec rows) (hydrateTo registry depth spec others) := by
  induction depth generalizing spec rows others with
  | zero =>
      rw [hydrateTo, hydrateTo]
      exact .ofExcept (entitiesOf_corresponds exposes registered agree)
  | succ depth induction =>
      rw [hydrateTo, hydrateTo]
      refine .bind (.ofExcept (entitiesOf_corresponds exposes registered agree)) ?_
      intro entities otherEntities alike
      have isEmpty : entities.isEmpty = otherEntities.isEmpty := by
        cases alike <;> rfl
      rw [isEmpty]
      split
      · exact .pure alike
      · -- Each step of the fold loads one relation, whose entities are loaded one level lower.
        refine .foldlM (fun step isStep entities others alike => ?_) alike
        obtain ⟨name, _, rfl⟩ := List.mem_map.mp isStep
        refine loadRelation_parallel exposes registered ?_ alike
        intro relation target values query declared known isQuery
        obtain ⟨isPath, conditions⟩ :=
          directRequest_leads apart registered leads declared known
        rw [isPath] at declared
        have isTarget := Registry.mem_of_resource known
        have joins := exposes.joining spec.resource registered _
          (Resource.mem_of_relation declared) target known
        obtain ⟨isResource, names⟩ := relatedQuery_namesVisible conditions joins.2 isQuery
        have below : ∀ request ∈ query.includes,
            request.LeadsVisible registry visible query.resource := by
          rw [relatedQuery_includes isQuery, isResource]
          exact fun request member =>
            belowRequests_leadVisible leads declared known request (mem_mergeRequests member)
        rw [← isResource] at isTarget ⊢
        exact .bind (fetchRows_parallel exposes isTarget names none none) fun _ _ agree =>
          induction isTarget below agree

end Memory

end Store

end ResourceServer
