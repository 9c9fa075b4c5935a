import ResourceServer.Proofs.Memory.Related

/-!
# Steps along relation paths

The requests of a specification are sorted by the relation that their paths start with.  No
two steps ask for the same relation, and the paths below a step are shorter by one segment,
so a depth that suffices for a specification leaves enough for each of its steps.

Relations are loaded up to a depth.  The depth that a specification is given is the number of
segments of its longest path, and a greater one makes no difference: below the last segment
there is nothing left to load.
-/

namespace ResourceServer

/-! ## Segments -/

section Segments

variable {separator : Char}

theorem splitAtEvery_ne_nil (characters : List Char) : splitAtEvery separator characters ≠ [] := by
  cases characters with
  | nil => simp [splitAtEvery]
  | cons character rest =>
      rw [splitAtEvery]
      split
      · simp
      · split <;> simp

theorem not_mem_splitAtEvery (characters : List Char) :
    ∀ segment ∈ splitAtEvery separator characters, separator ∉ segment := by
  induction characters with
  | nil => simp [splitAtEvery]
  | cons character rest induction =>
      rw [splitAtEvery]
      split
      · rename_i none
        cases splitAtEvery_ne_nil rest none
      · rename_i first segments found
        rw [found, List.forall_mem_cons] at induction
        split
        · simp only [List.forall_mem_cons]
          exact ⟨List.not_mem_nil, induction⟩
        · rename_i different
          rw [List.forall_mem_cons, List.mem_cons, not_or]
          exact ⟨⟨Ne.symm different, induction.1⟩, induction.2⟩

theorem splitAtEvery_of_not_mem {characters : List Char} (absent : separator ∉ characters) :
    splitAtEvery separator characters = [characters] := by
  induction characters with
  | nil => rfl
  | cons character rest induction =>
      rw [List.mem_cons, not_or] at absent
      rw [splitAtEvery, induction absent.2]
      exact if_neg (Ne.symm absent.1)

theorem splitAtEvery_append {characters : List Char} (rest : List Char)
    (absent : separator ∉ characters) :
    splitAtEvery separator (characters ++ separator :: rest) =
      characters :: splitAtEvery separator rest := by
  induction characters with
  | nil =>
      rw [List.nil_append, splitAtEvery]
      split
      · rename_i none
        cases splitAtEvery_ne_nil rest none
      · rename_i first segments found
        rw [if_pos rfl, found]
  | cons character characters induction =>
      rw [List.mem_cons, not_or] at absent
      rw [List.cons_append, splitAtEvery, induction absent.2]
      exact if_neg (Ne.symm absent.1)

theorem splitAtEvery_intercalate {segments : List (List Char)} (some : segments ≠ [])
    (absent : ∀ segment ∈ segments, separator ∉ segment) :
    splitAtEvery separator ([separator].intercalate segments) = segments := by
  induction segments with
  | nil => cases some rfl
  | cons segment segments induction =>
      rw [List.forall_mem_cons] at absent
      cases segments with
      | nil =>
          rw [List.intercalate_singleton]
          exact splitAtEvery_of_not_mem absent.1
      | cons next segments =>
          rw [List.intercalate_cons_cons, List.append_assoc, List.singleton_append,
            splitAtEvery_append _ absent.1, induction (List.cons_ne_nil _ _) absent.2]

end Segments

/-- A segment of a path holds no dot. -/
theorem dot_not_mem_pathSegments (path : String) :
    ∀ segment ∈ pathSegments path, '.' ∉ segment.toList := by
  intro segment member
  obtain ⟨characters, inPath, rfl⟩ := List.mem_map.mp member
  rw [String.toList_ofList]
  exact not_mem_splitAtEvery path.toList characters inPath

theorem pathSegments_ne_nil (path : String) : pathSegments path ≠ [] := by
  unfold pathSegments
  rw [Ne, List.map_eq_nil_iff]
  exact splitAtEvery_ne_nil path.toList

theorem pathSegments_joinSegments {segments : List String} (some : segments ≠ [])
    (absent : ∀ segment ∈ segments, '.' ∉ segment.toList) :
    pathSegments (joinSegments segments) = segments := by
  have split : splitAtEvery '.' ((joinSegments segments).toList) = segments.map String.toList := by
    rw [joinSegments, String.toList_intercalate]
    refine splitAtEvery_intercalate (by simpa using some) ?_
    intro characters member
    obtain ⟨segment, isSegment, rfl⟩ := List.mem_map.mp member
    exact absent segment isSegment
  rw [pathSegments, split, List.map_map]
  simp [Function.comp_def]

namespace RelationStep

theorem head_mem (path : String) : head path ∈ pathSegments path := by
  unfold head
  cases segments : pathSegments path with
  | nil => cases pathSegments_ne_nil path segments
  | cons first rest => simp

/-- The head of a path is a path of one segment. -/
theorem head_head (path : String) : head (head path) = head path := by
  have single : pathSegments (joinSegments [head path]) = [head path] :=
    pathSegments_joinSegments (by simp)
      (by simpa using dot_not_mem_pathSegments path _ (head_mem path))
  rw [joinSegments, String.intercalate_singleton] at single
  rw [head, single]
  rfl

/-- The tail of a path has all segments but the first. -/
theorem pathSegments_tail {path : String} (some : (tail path).isEmpty = false) :
    pathSegments (tail path) = (pathSegments path).drop 1 := by
  have isSome : (pathSegments path).drop 1 ≠ [] := by
    intro none
    rw [tail, none] at some
    cases some
  rw [tail, pathSegments_joinSegments isSome]
  intro segment member
  exact dot_not_mem_pathSegments path segment (List.mem_of_mem_drop member)

/-! ## Steps -/

theorem head_directRequest {name : String} (own : head name = name)
    (requests : List RelationRequest) : head (directRequest name requests).path = name := by
  unfold directRequest
  cases last : (requests.filter fun request =>
      head request.path == name && (tail request.path).isEmpty).getLast? with
  | none => exact own
  | some request =>
      have member := (List.mem_filter.mp (List.mem_of_getLast? last)).2
      rw [Bool.and_eq_true, beq_iff_eq] at member
      exact member.1

/-- No two steps ask for the same relation. -/
theorem ofRequests_pairwise (requests : List RelationRequest) :
    (ofRequests requests).Pairwise fun earlier later =>
      earlier.request.path ≠ later.request.path := by
  unfold ofRequests
  rw [List.pairwise_map]
  have heads : ∀ name ∈ distinctNames (requests.map fun request => head request.path),
      head name = name := by
    intro name member
    obtain ⟨request, _, rfl⟩ := List.mem_map.mp (mem_distinctNames.mp member)
    exact head_head request.path
  refine (nodup_distinctNames _).imp_of_mem fun {first second} isFirst isSecond different same => ?_
  have sameHead := congrArg head same
  rw [head_directRequest (heads first isFirst), head_directRequest (heads second isSecond)]
    at sameHead
  exact different sameHead

theorem segments_below {requests : List RelationRequest} {step : RelationStep} {bound : Nat}
    (member : step ∈ ofRequests requests)
    (bounded : ∀ request ∈ requests, request.segments.length ≤ bound + 1) :
    ∀ request ∈ step.below, request.segments.length ≤ bound := by
  obtain ⟨name, _, rfl⟩ := List.mem_map.mp member
  intro request isBelow
  obtain ⟨above, isAbove, rfl⟩ := List.mem_map.mp isBelow
  obtain ⟨isRequest, starts⟩ := List.mem_filter.mp isAbove
  rw [Bool.and_eq_true, Bool.not_eq_true'] at starts
  change (pathSegments (tail above.path)).length ≤ bound
  rw [pathSegments_tail starts.2, List.length_drop]
  have boundedAbove := bounded above isRequest
  unfold RelationRequest.segments at boundedAbove
  omega

end RelationStep

theorem mem_mergeRequests {requests : List RelationRequest} {request : RelationRequest}
    (member : request ∈ mergeRequests requests) : request ∈ requests := by
  unfold mergeRequests at member
  rw [List.mem_mergeSort] at member
  have general : ∀ kept : List RelationRequest, ∀ request ∈ requests.foldl (fun kept request =>
      if kept.any (·.path == request.path) then
        kept.map fun other => if other.path == request.path then request else other
      else kept ++ [request]) kept, request ∈ kept ∨ request ∈ requests := by
    clear member
    induction requests with
    | nil => exact fun kept request inKept => .inl inKept
    | cons first rest induction =>
        intro kept request member
        rw [List.foldl_cons] at member
        cases induction _ request member with
        | inr inRest => exact .inr (List.mem_cons_of_mem first inRest)
        | inl next =>
            split at next
            · obtain ⟨other, inKept, rfl⟩ := List.mem_map.mp next
              split
              · exact .inr List.mem_cons_self
              · exact .inl inKept
            · cases List.mem_append.mp next with
              | inl inKept => exact .inl inKept
              | inr isFirst =>
                  rw [List.mem_singleton.mp isFirst]
                  exact .inr List.mem_cons_self
  cases general [] request member with
  | inl none => cases none
  | inr found => exact found

namespace Store

theorem includeDepth_le {spec : QuerySpec} {bound : Nat} :
    includeDepth spec ≤ bound ↔
      ∀ request ∈ spec.includes, request.segments.length ≤ bound := by
  unfold includeDepth
  have general : ∀ (lengths : List Nat) (least : Nat),
      lengths.foldl max least ≤ bound ↔ least ≤ bound ∧ ∀ length ∈ lengths, length ≤ bound := by
    intro lengths
    induction lengths with
    | nil => simp
    | cons length rest induction =>
        intro least
        rw [List.foldl_cons, induction, max_le_iff, List.forall_mem_cons, and_assoc]
  simp [general]

end Store

/-! ## Depth -/

theorem relatedQuery_eq_ok {target : Resource} {field : String} {values : List Value}
    {request : RelationRequest} {below : List RelationRequest} {query : QuerySpec}
    (isQuery : relatedQuery target field values request below = .ok query) :
    ∃ leaf, query = target.relatedSpec leaf request below := by
  rw [relatedQuery_eq] at isQuery
  cases made : Filter.Leaf.make field .isIn (.list values) with
  | error error =>
      rw [made] at isQuery
      cases isQuery
  | ok leaf =>
      rw [made] at isQuery
      cases isQuery
      exact ⟨leaf, rfl⟩

theorem relatedQuery_includes {target : Resource} {field : String} {values : List Value}
    {request : RelationRequest} {below : List RelationRequest} {query : QuerySpec}
    (isQuery : relatedQuery target field values request below = .ok query) :
    query.includes = mergeRequests below := by
  obtain ⟨leaf, rfl⟩ := relatedQuery_eq_ok isQuery
  rfl

theorem relatedQuery_resource {target : Resource} {field : String} {values : List Value}
    {request : RelationRequest} {below : List RelationRequest} {query : QuerySpec}
    (isQuery : relatedQuery target field values request below = .ok query) :
    query.resource = target := by
  obtain ⟨leaf, rfl⟩ := relatedQuery_eq_ok isQuery
  rfl

theorem Action.ofExcept_bind_congr {σ α β : Type} {result : Except Error α}
    {next other : α → Action σ β} (agree : ∀ value, result = .ok value → next value = other value) :
    Action.ofExcept result >>= next = Action.ofExcept result >>= other := by
  cases result with
  | error error => rfl
  | ok value => exact agree value rfl

namespace Store

variable {σ : Type}

/-- Entities that hold the same in a field are asked for by the same joining values. -/
theorem joiningValues_map {field : String} {change : Entity → Entity}
    (keeps : ∀ entity, (change entity).get field = entity.get field) (entities : List Entity) :
    joiningValues field (entities.map change) = joiningValues field entities := by
  have same : entities.map ((fun entity => entity.get field) ∘ change) =
      entities.map fun entity => entity.get field :=
    List.map_congr_left fun entity _ => keeps entity
  unfold joiningValues
  rw [List.map_map, same]

theorem loadRelation_congr {getRelated getOther : QuerySpec → Action σ (List Entity)}
    {step : RelationStep}
    (agree : ∀ query, query.includes = mergeRequests step.below → getRelated query = getOther query)
    (registry : Registry) (owner : Resource) (entities : List Entity) :
    loadRelation getRelated registry owner entities step =
      loadRelation getOther registry owner entities step := by
  unfold loadRelation
  refine Action.ofExcept_bind_congr fun relation _ => ?_
  refine Action.ofExcept_bind_congr fun target _ => ?_
  dsimp only
  split
  · rfl
  · refine Action.ofExcept_bind_congr fun query isQuery => ?_
    rw [agree query (relatedQuery_includes isQuery)]

variable [Store σ]

/-- The depth below a step. -/
theorem includeDepth_below {spec query : QuerySpec} {step : RelationStep} {depth : Nat}
    (member : step ∈ RelationStep.ofRequests spec.includes)
    (bounded : includeDepth spec ≤ depth + 1)
    (asks : query.includes = mergeRequests step.below) : includeDepth query ≤ depth := by
  rw [includeDepth_le] at bounded ⊢
  intro request isRequest
  rw [asks] at isRequest
  exact RelationStep.segments_below member bounded request (mem_mergeRequests isRequest)

theorem ofRequests_eq_nil {spec : QuerySpec} (noDepth : includeDepth spec ≤ 0) :
    RelationStep.ofRequests spec.includes = [] := by
  rw [includeDepth_le] at noDepth
  cases requests : spec.includes with
  | nil => rfl
  | cons request rest =>
      have segments : request.segments.length ≤ 0 := noDepth request (by simp [requests])
      rw [Nat.le_zero, List.length_eq_zero_iff] at segments
      cases pathSegments_ne_nil request.path segments

theorem foldlM_congr {m : Type → Type} [Monad m] [LawfulMonad m] {α β : Type}
    {step other : β → α → m β} {items : List α}
    (agree : ∀ item ∈ items, ∀ value, step value item = other value item) (value : β) :
    items.foldlM step value = items.foldlM other value := by
  induction items generalizing value with
  | nil => rfl
  | cons item rest induction =>
      rw [List.forall_mem_cons] at agree
      rw [List.foldlM_cons, List.foldlM_cons, agree.1 value]
      congr 1
      funext next
      exact induction agree.2 next

theorem hydrateTo_succ {registry : Registry} {depth : Nat} {spec : QuerySpec}
    (enough : includeDepth spec ≤ depth) (rows : List Record) :
    (hydrateTo registry (depth + 1) spec rows : Action σ _) =
      hydrateTo registry depth spec rows := by
  induction depth generalizing spec rows with
  | zero =>
      rw [hydrateTo, hydrateTo, ofRequests_eq_nil enough]
      cases entitiesOf spec.resource rows with
      | error error => rfl
      | ok entities =>
          cases entities <;> rfl
  | succ depth induction =>
      rw [hydrateTo, hydrateTo]
      refine Action.ofExcept_bind_congr fun entities _ => ?_
      split
      · rfl
      · refine foldlM_congr (fun step member loaded => ?_) entities
        refine loadRelation_congr (fun query asks => ?_) registry spec.resource loaded
        have shallow := includeDepth_below member enough asks
        congr 1
        funext rows
        exact induction shallow rows

/-- A depth that suffices loads what the depth of the specification loads. -/
theorem hydrateTo_eq_hydrate {registry : Registry} {depth : Nat} {spec : QuerySpec}
    (enough : includeDepth spec ≤ depth) (rows : List Record) :
    (hydrateTo registry depth spec rows : Action σ _) = hydrate registry spec rows := by
  induction depth, enough using Nat.le_induction with
  | base => rfl
  | succ depth enough induction => rw [hydrateTo_succ enough, induction]

end Store

end ResourceServer
