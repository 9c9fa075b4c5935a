import ResourceServer.Envelope
import ResourceServer.Proofs.Store.Steps

/-!
# The guard of answers

Loaded relations that were not asked for are taken out of an entity at every depth.  A path
leads through its ancestors, so what stands below a relation that is taken out was not asked
for either, and the paths that remain are those that requests lead through.
-/

namespace ResourceServer

/-! ## Paths as texts -/

section Characters

variable {separator : Char}

theorem splitAtEvery_cons_ne {character : Char} (different : character ≠ separator)
    (rest : List Char) :
    ∃ first segments, splitAtEvery separator rest = first :: segments ∧
      splitAtEvery separator (character :: rest) = (character :: first) :: segments := by
  cases split : splitAtEvery separator rest with
  | nil => exact absurd split (splitAtEvery_ne_nil rest)
  | cons first segments =>
      refine ⟨first, segments, rfl, ?_⟩
      simp [splitAtEvery, split, different]

theorem splitAtEvery_cons_separator (rest : List Char) :
    splitAtEvery separator (separator :: rest) = [] :: splitAtEvery separator rest := by
  cases split : splitAtEvery separator rest with
  | nil => exact absurd split (splitAtEvery_ne_nil rest)
  | cons first segments => simp [splitAtEvery, split]

/-- What is cut at a separator falls into the segments before it and those after it. -/
theorem splitAtEvery_join (before after : List Char) :
    splitAtEvery separator (before ++ separator :: after) =
      splitAtEvery separator before ++ splitAtEvery separator after := by
  induction before with
  | nil => exact splitAtEvery_cons_separator after
  | cons character before induction =>
      by_cases same : character = separator
      · subst same
        simp only [List.cons_append, splitAtEvery_cons_separator, induction]
      · obtain ⟨first, segments, split, splitCons⟩ := splitAtEvery_cons_ne same before
        obtain ⟨joined, others, splitJoin, splitJoinCons⟩ :=
          splitAtEvery_cons_ne same (before ++ separator :: after)
        rw [induction, split, List.cons_append, List.cons.injEq] at splitJoin
        rw [List.cons_append, splitJoinCons, splitCons, ← splitJoin.1, ← splitJoin.2,
          List.cons_append]

theorem intercalate_splitAtEvery (characters : List Char) :
    [separator].intercalate (splitAtEvery separator characters) = characters := by
  induction characters with
  | nil => rfl
  | cons character rest induction =>
      by_cases same : character = separator
      · subst same
        rw [splitAtEvery_cons_separator, List.intercalate_cons_of_ne_nil (splitAtEvery_ne_nil rest),
          induction]
        rfl
      · obtain ⟨first, segments, split, splitCons⟩ := splitAtEvery_cons_ne same rest
        rw [split] at induction
        rw [splitCons, ← induction]
        cases segments <;> simp

end Characters

theorem joinSegments_pathSegments (path : String) : joinSegments (pathSegments path) = path := by
  apply String.toList_injective
  have characters : (pathSegments path).map String.toList = splitAtEvery '.' path.toList := by
    simp [pathSegments, List.map_map, Function.comp_def]
  rw [joinSegments, String.toList_intercalate, characters]
  exact intercalate_splitAtEvery path.toList

theorem pathSegments_dot (path below : String) :
    pathSegments (path ++ "." ++ below) = pathSegments path ++ pathSegments below := by
  have characters : (path ++ "." ++ below).toList = path.toList ++ '.' :: below.toList := by
    simp [String.toList_append]
  rw [pathSegments, characters, splitAtEvery_join, List.map_append]
  rfl

theorem continues_iff {beginning text : String} :
    continues beginning text = true ↔ ∃ rest, text = beginning ++ rest := by
  rw [continues, List.isPrefixOf_iff_prefix]
  constructor
  · rintro ⟨rest, split⟩
    refine ⟨String.ofList rest, String.toList_injective ?_⟩
    rw [String.toList_append, String.toList_ofList, split]
  · rintro ⟨rest, rfl⟩
    rw [String.toList_append]
    exact List.prefix_append _ _

/-! ## What requests lead through -/

/-- Whether a request asks for the relation at a path or for one below it. -/
def RelationRequest.leadsThrough (request : RelationRequest) (path : String) : Bool :=
  path == request.path || continues (path ++ ".") request.path

theorem RelationRequest.leadsThrough_iff {request : RelationRequest} {path : String} :
    request.leadsThrough path = true ↔
      request.path = path ∨ ∃ below, request.path = path ++ "." ++ below := by
  rw [leadsThrough, Bool.or_eq_true, beq_iff_eq, continues_iff, eq_comm]

/-- The ancestors of a path are the texts that it continues after a dot, and the path itself. -/
theorem RelationRequest.mem_ancestorPaths {request : RelationRequest} {path : String} :
    path ∈ request.ancestorPaths ↔ request.leadsThrough path = true := by
  rw [leadsThrough_iff, ancestorPaths, List.mem_map]
  constructor
  · rintro ⟨position, _, rfl⟩
    have whole : joinSegments request.segments = request.path :=
      joinSegments_pathSegments request.path
    by_cases isLast : request.segments.drop (position + 1) = []
    · have all := List.take_append_drop (position + 1) request.segments
      rw [isLast, List.append_nil] at all
      exact .inl (by rw [all, whole])
    · have someBefore : request.segments.take (position + 1) ≠ [] := by
        simp [List.take_eq_nil_iff, segments, pathSegments_ne_nil]
      refine .inr ⟨joinSegments (request.segments.drop (position + 1)), ?_⟩
      rw [← whole, joinSegments, joinSegments, joinSegments,
        ← String.intercalate_append_of_ne_nil someBefore isLast, List.take_append_drop]
  · intro leads
    obtain ⟨below, split⟩ : ∃ below, request.segments = pathSegments path ++ below := by
      cases leads with
      | inl same => exact ⟨[], by rw [segments, same, List.append_nil]⟩
      | inr longer =>
          obtain ⟨below, longer⟩ := longer
          exact ⟨pathSegments below, by rw [segments, longer, pathSegments_dot]⟩
    have some := List.length_pos_iff.mpr (pathSegments_ne_nil path)
    refine ⟨(pathSegments path).length - 1, ?_, ?_⟩
    · rw [List.mem_range, split, List.length_append]
      omega
    · rw [Nat.sub_add_cancel some, split, List.take_left, joinSegments_pathSegments]

theorem allowedPaths_contains (requests : List RelationRequest) (path : String) :
    (allowedPaths requests).contains path = requests.any (·.leadsThrough path) := by
  rw [Bool.eq_iff_iff, List.contains_iff_mem, List.any_eq_true, allowedPaths, List.mem_flatMap]
  simp only [RelationRequest.mem_ancestorPaths]

/-- A request that leads below a path leads through it. -/
theorem leadsThrough_above {requests : List RelationRequest} {path below : String}
    (leads : requests.any (·.leadsThrough (path ++ "." ++ below)) = true) :
    requests.any (·.leadsThrough path) = true := by
  rw [List.any_eq_true] at leads ⊢
  obtain ⟨request, member, leads⟩ := leads
  refine ⟨request, member, ?_⟩
  rw [RelationRequest.leadsThrough_iff] at leads ⊢
  right
  cases leads with
  | inl same => exact ⟨below, same⟩
  | inr longer =>
      obtain ⟨rest, longer⟩ := longer
      exact ⟨below ++ "." ++ rest, by simp only [longer, String.append_assoc]⟩

/-! ## Paths below a beginning -/

mutual

theorem Entity.loadedPaths_below (beginning : String) (entity : Entity) :
    ∀ path ∈ entity.loadedPaths beginning, ∃ below, path = beginning ++ below := by
  cases entity with
  | mk resource key attributes relations created =>
      rw [Entity.loadedPaths]
      exact relationPaths_below beginning relations

theorem relationPaths_below (beginning : String) (relations : List (String × Related)) :
    ∀ path ∈ relationPaths beginning relations, ∃ below, path = beginning ++ below := by
  cases relations with
  | nil => simp [relationPaths]
  | cons relation rest =>
      obtain ⟨name, related⟩ := relation
      rw [relationPaths, List.forall_mem_cons, List.forall_mem_append]
      refine ⟨⟨name, rfl⟩, fun path member => ?_, relationPaths_below beginning rest⟩
      obtain ⟨below, split⟩ := related.loadedPaths_below (beginning ++ name ++ ".") path member
      exact ⟨name ++ "." ++ below, by simp only [split, String.append_assoc]⟩

theorem Related.loadedPaths_below (beginning : String) (related : Related) :
    ∀ path ∈ related.loadedPaths beginning, ∃ below, path = beginning ++ below := by
  cases related with
  | absent => simp [Related.loadedPaths]
  | single entity =>
      rw [Related.loadedPaths]
      exact entity.loadedPaths_below beginning
  | many entities =>
      rw [Related.loadedPaths]
      exact entityPaths_below beginning entities

theorem entityPaths_below (beginning : String) (entities : List Entity) :
    ∀ path ∈ entityPaths beginning entities, ∃ below, path = beginning ++ below := by
  cases entities with
  | nil => simp [entityPaths]
  | cons entity rest =>
      rw [entityPaths, List.forall_mem_append]
      exact ⟨entity.loadedPaths_below beginning, entityPaths_below beginning rest⟩

end

/-! ## What remains -/

section Restriction

variable {allowed : List String}

/-- Whether every path on the way to an allowed one is allowed. -/
def AllowsAncestors (allowed : List String) : Prop :=
  ∀ path below, allowed.contains (path ++ "." ++ below) = true → allowed.contains path = true

theorem allowsAncestors_allowedPaths (requests : List RelationRequest) :
    AllowsAncestors (allowedPaths requests) := by
  intro path below allows
  rw [allowedPaths_contains] at allows ⊢
  exact leadsThrough_above allows

/-- Nothing below a relation that is not allowed is allowed. -/
theorem filter_below_eq_nil (closed : AllowsAncestors allowed) {path : String}
    (refused : ¬ allowed.contains path = true) (related : Related) :
    (related.loadedPaths (path ++ ".")).filter allowed.contains = [] := by
  rw [List.filter_eq_nil_iff]
  intro loaded member allows
  obtain ⟨below, rfl⟩ := related.loadedPaths_below (path ++ ".") loaded member
  exact refused (closed path below allows)

mutual

theorem Entity.loadedPaths_restrictTo (closed : AllowsAncestors allowed) (beginning : String)
    (entity : Entity) :
    (entity.restrictTo allowed beginning).loadedPaths beginning =
      (entity.loadedPaths beginning).filter allowed.contains := by
  cases entity with
  | mk resource key attributes relations created =>
      rw [Entity.restrictTo, Entity.loadedPaths, Entity.loadedPaths]
      exact relationPaths_restrictRelations closed beginning relations

theorem relationPaths_restrictRelations (closed : AllowsAncestors allowed) (beginning : String)
    (relations : List (String × Related)) :
    relationPaths beginning (restrictRelations allowed beginning relations) =
      (relationPaths beginning relations).filter allowed.contains := by
  cases relations with
  | nil => rfl
  | cons relation rest =>
      obtain ⟨name, related⟩ := relation
      have others := relationPaths_restrictRelations closed beginning rest
      rw [restrictRelations, relationPaths]
      by_cases allows : allowed.contains (beginning ++ name) = true
      · have below := related.loadedPaths_restrictTo closed (beginning ++ name ++ ".")
        rw [if_pos allows, relationPaths, List.filter_cons_of_pos allows, List.filter_append, below,
          others]
      · -- The relation goes with all that is loaded below it, so nothing below it may be allowed.
        have none := filter_below_eq_nil closed allows related
        rw [if_neg allows, List.filter_cons_of_neg allows, List.filter_append, none, others,
          List.nil_append]

theorem Related.loadedPaths_restrictTo (closed : AllowsAncestors allowed) (beginning : String)
    (related : Related) :
    (related.restrictTo allowed beginning).loadedPaths beginning =
      (related.loadedPaths beginning).filter allowed.contains := by
  cases related with
  | absent => simp only [Related.restrictTo, Related.loadedPaths, List.filter_nil]
  | single entity =>
      rw [Related.restrictTo, Related.loadedPaths, Related.loadedPaths]
      exact entity.loadedPaths_restrictTo closed beginning
  | many entities =>
      rw [Related.restrictTo, Related.loadedPaths, Related.loadedPaths]
      exact entityPaths_restrictEntities closed beginning entities

theorem entityPaths_restrictEntities (closed : AllowsAncestors allowed) (beginning : String)
    (entities : List Entity) :
    entityPaths beginning (restrictEntities allowed beginning entities) =
      (entityPaths beginning entities).filter allowed.contains := by
  cases entities with
  | nil => rfl
  | cons entity rest =>
      rw [restrictEntities, entityPaths, entityPaths, List.filter_append,
        entity.loadedPaths_restrictTo closed beginning,
        entityPaths_restrictEntities closed beginning rest]

end

/-! ## What is kept -/

mutual

/-- An entity that came out of another one by taking relations out, of it or of what it leads to. -/
inductive Entity.Prunes : Entity → Entity → Prop
  | mk {resource : String} {key : Value} {attributes : Record} {created : Bool}
      {relations kept : List (String × Related)} (below : RelationsPrune relations kept) :
      Entity.Prunes (.mk resource key attributes relations created)
        (.mk resource key attributes kept created)

/-- Relations of which some were taken out, the others being left in their order. -/
inductive RelationsPrune : List (String × Related) → List (String × Related) → Prop
  | nil : RelationsPrune [] []
  | drop (name : String) (related : Related) {rest kept : List (String × Related)}
      (others : RelationsPrune rest kept) : RelationsPrune ((name, related) :: rest) kept
  | keep (name : String) {related keptRelated : Related} {rest kept : List (String × Related)}
      (below : Related.Prunes related keptRelated) (others : RelationsPrune rest kept) :
      RelationsPrune ((name, related) :: rest) ((name, keptRelated) :: kept)

/-- What a relation leads to, relations being taken out of the entities only. -/
inductive Related.Prunes : Related → Related → Prop
  | absent : Related.Prunes .absent .absent
  | single {entity kept : Entity} (below : Entity.Prunes entity kept) :
      Related.Prunes (.single entity) (.single kept)
  | many {entities kept : List Entity} (below : EntitiesPrune entities kept) :
      Related.Prunes (.many entities) (.many kept)

/-- Entities in their order, relations being taken out of each. -/
inductive EntitiesPrune : List Entity → List Entity → Prop
  | nil : EntitiesPrune [] []
  | cons {entity kept : Entity} {rest keptRest : List Entity} (first : Entity.Prunes entity kept)
      (others : EntitiesPrune rest keptRest) : EntitiesPrune (entity :: rest) (kept :: keptRest)

end

mutual

theorem Entity.prunes_restrictTo (allowed : List String) (beginning : String) (entity : Entity) :
    entity.Prunes (entity.restrictTo allowed beginning) := by
  cases entity with
  | mk resource key attributes relations created =>
      rw [Entity.restrictTo]
      apply Entity.Prunes.mk
      exact relationsPrune_restrictRelations allowed beginning relations

theorem relationsPrune_restrictRelations (allowed : List String) (beginning : String)
    (relations : List (String × Related)) :
    RelationsPrune relations (restrictRelations allowed beginning relations) := by
  cases relations with
  | nil => exact RelationsPrune.nil
  | cons relation rest =>
      obtain ⟨name, related⟩ := relation
      have others := relationsPrune_restrictRelations allowed beginning rest
      rw [restrictRelations]
      by_cases allows : allowed.contains (beginning ++ name) = true
      · rw [if_pos allows]
        apply RelationsPrune.keep
        · exact related.prunes_restrictTo allowed (beginning ++ name ++ ".")
        · exact others
      · rw [if_neg allows]
        exact RelationsPrune.drop name related others

theorem Related.prunes_restrictTo (allowed : List String) (beginning : String)
    (related : Related) : related.Prunes (related.restrictTo allowed beginning) := by
  cases related with
  | absent =>
      rw [Related.restrictTo]
      exact Related.Prunes.absent
  | single entity =>
      rw [Related.restrictTo]
      exact Related.Prunes.single (entity.prunes_restrictTo allowed beginning)
  | many entities =>
      rw [Related.restrictTo]
      exact Related.Prunes.many (entitiesPrune_restrictEntities allowed beginning entities)

theorem entitiesPrune_restrictEntities (allowed : List String) (beginning : String)
    (entities : List Entity) :
    EntitiesPrune entities (restrictEntities allowed beginning entities) := by
  cases entities with
  | nil => exact EntitiesPrune.nil
  | cons entity rest =>
      rw [restrictEntities]
      apply EntitiesPrune.cons
      · exact entity.prunes_restrictTo allowed beginning
      · exact entitiesPrune_restrictEntities allowed beginning rest

end

mutual

theorem Entity.restrictTo_restrictTo (allowed : List String) (beginning : String)
    (entity : Entity) :
    (entity.restrictTo allowed beginning).restrictTo allowed beginning =
      entity.restrictTo allowed beginning := by
  cases entity with
  | mk resource key attributes relations created =>
      rw [Entity.restrictTo, Entity.restrictTo, restrictRelations_restrictRelations]

theorem restrictRelations_restrictRelations (allowed : List String) (beginning : String)
    (relations : List (String × Related)) :
    restrictRelations allowed beginning (restrictRelations allowed beginning relations) =
      restrictRelations allowed beginning relations := by
  cases relations with
  | nil => rfl
  | cons relation rest =>
      obtain ⟨name, related⟩ := relation
      have others := restrictRelations_restrictRelations allowed beginning rest
      rw [restrictRelations]
      by_cases allows : allowed.contains (beginning ++ name) = true
      · rw [if_pos allows, restrictRelations, if_pos allows, others,
          related.restrictTo_restrictTo allowed (beginning ++ name ++ ".")]
      · rw [if_neg allows, others]

theorem Related.restrictTo_restrictTo (allowed : List String) (beginning : String)
    (related : Related) :
    (related.restrictTo allowed beginning).restrictTo allowed beginning =
      related.restrictTo allowed beginning := by
  cases related with
  | absent => simp only [Related.restrictTo]
  | single entity => rw [Related.restrictTo, Related.restrictTo, entity.restrictTo_restrictTo]
  | many entities => rw [Related.restrictTo, Related.restrictTo, restrictEntities_restrictEntities]

theorem restrictEntities_restrictEntities (allowed : List String) (beginning : String)
    (entities : List Entity) :
    restrictEntities allowed beginning (restrictEntities allowed beginning entities) =
      restrictEntities allowed beginning entities := by
  cases entities with
  | nil => rfl
  | cons entity rest =>
      rw [restrictEntities, restrictEntities, entity.restrictTo_restrictTo,
        restrictEntities_restrictEntities allowed beginning rest]

end

theorem restrictEntities_eq_map (allowed : List String) (beginning : String)
    (entities : List Entity) :
    restrictEntities allowed beginning entities =
      entities.map fun entity => entity.restrictTo allowed beginning := by
  induction entities with
  | nil => rfl
  | cons entity rest induction => rw [restrictEntities, induction, List.map_cons]

end Restriction

/-- The guard keeps of the loaded paths those that a request leads through, takes out nothing but
relations, changes nothing the second time, and treats a collection entity by entity. -/
theorem guard_exact (requests : List RelationRequest) :
    (∀ entity : Entity,
      (entity.guarded requests).loadedPaths "" =
          (entity.loadedPaths "").filter (fun path => requests.any (·.leadsThrough path)) ∧
        entity.Prunes (entity.guarded requests) ∧
        (entity.guarded requests).guarded requests = entity.guarded requests) ∧
      ∀ entities : List Entity,
        guardEntities requests entities = entities.map fun entity => entity.guarded requests := by
  have closed := allowsAncestors_allowedPaths requests
  constructor
  · intro entity
    have paths := entity.loadedPaths_restrictTo closed ""
    have kept := entity.prunes_restrictTo (allowedPaths requests) ""
    have again := entity.restrictTo_restrictTo (allowedPaths requests) ""
    refine ⟨?_, kept, again⟩
    simp only [← allowedPaths_contains]
    exact paths
  · intro entities
    exact restrictEntities_eq_map (allowedPaths requests) "" entities

end ResourceServer
