import Mathlib
import ResourceServer.Proofs.Store.Levels
import ResourceServer.Samples.Library

/-!
# Eager loading

Relations are loaded level by level, with one query for all entities of a level.  At every
level each entity has what a query for it alone yields.  Only where rows are sorted by NaN,
where the column that they are joined by is hidden by a count or is no column of its table, or
where two relations share a name, may an entity have something else.
-/

namespace ResourceServer

/-- The query for the entities related to a single joining value. -/
def parentQuery (target : Resource) (field : String) (value : Value) (request : RelationRequest)
    (below : List RelationRequest) : Except Error QuerySpec := do
  let leaf ← Filter.Leaf.make field .eq value
  let spec := ({ resource := target } : QuerySpec).whereNode (.leaf leaf)
  let filtered := request.filters.toList.foldl QuerySpec.whereNode (spec.withRelations below)
  .ok ((filtered.orderBy request.sort).withAggregates (sortAggregates target request))

theorem parentQuery_eq {value : Value} (target : Resource) (field : String)
    (joins : value.isJoining = true) (given : value ≠ .null) (request : RelationRequest)
    (below : List RelationRequest) :
    parentQuery target field value request below =
      .ok (target.relatedSpec ⟨field, .eq, value, .both⟩ request below) := by
  unfold parentQuery
  rw [Filter.Leaf.make_eq field joins given]
  obtain ⟨path, filters, sort, window⟩ := request
  cases filters with
  | none => rfl
  | some filter => rfl

theorem parentQuery_includes {target : Resource} {field : String} {value : Value}
    {request : RelationRequest} {below : List RelationRequest} {query : QuerySpec}
    (isQuery : parentQuery target field value request below = .ok query) :
    query.resource = target ∧ query.includes = mergeRequests below := by
  obtain ⟨leaf, _, built⟩ := bind_eq_ok.mp isQuery
  cases built
  obtain ⟨path, filters, sort, window⟩ := request
  cases filters with
  | none => exact ⟨rfl, rfl⟩
  | some filter => exact ⟨rfl, rfl⟩

@[simp] theorem RelationWindow.apply_nil {α : Type} (window : RelationWindow) :
    window.apply ([] : List α) = [] := by
  simp [apply, sliceBetween]

theorem Relation.related_nil (relation : Relation) (window : Option RelationWindow) :
    relation.related window [] = if relation.isMany then .many [] else .absent := by
  unfold related
  split
  · cases window with
    | none => rfl
    | some window => simp
  · rfl

namespace Store

section Alone

variable {σ : Type} [Store σ]

/-- An entity has through a step what a query for its own joining value yields, and nothing when
it has no joining value. -/
def HasAlone (registry : Registry) (state : σ) (owner : Resource) (entity : Entity)
    (step : RelationStep) : Prop :=
  ∃ relation target shown, owner.relation step.request.path = .ok relation ∧
    registry.resource relation.target = .ok target ∧
    entity.relations.lookup relation.name = some shown ∧
    (entity.get (relation.ownerField owner target) = .null →
      shown = if relation.isMany then .many [] else .absent) ∧
    (entity.get (relation.ownerField owner target) ≠ .null →
      ∃ query found, parentQuery target (relation.targetField owner target)
          (entity.get (relation.ownerField owner target)) step.request step.below = .ok query ∧
        (get registry query).Yields state found ∧
          shown = relation.related step.request.window found)

/-- An entity has through all steps what queries for it alone yield, and so have the entities
that these queries yield. -/
inductive LoadedAlone (registry : Registry) (state : σ) : QuerySpec → Entity → Prop where
  | intro {spec : QuerySpec} {entity : Entity}
      (relations : ∀ step ∈ RelationStep.ofRequests spec.includes,
        HasAlone registry state spec.resource entity step)
      (below : ∀ step ∈ RelationStep.ofRequests spec.includes, ∀ relation target query found,
        spec.resource.relation step.request.path = .ok relation →
          registry.resource relation.target = .ok target →
            parentQuery target (relation.targetField spec.resource target)
                (entity.get (relation.ownerField spec.resource target)) step.request step.below =
              .ok query →
              (get registry query).Yields state found →
                ∀ child ∈ found, LoadedAlone registry state query child) :
      LoadedAlone registry state spec entity

end Alone

section Levels

variable {τ : Type} {registry : Registry} {memory : Memory} {side : τ}
variable {spec : QuerySpec} {entities : List Entity}

/-- What a step leads to is the same whether it is loaded up to a sufficient depth or in full. -/
theorem LoadedThrough.hasAlone {state : Memory × τ} {owner : Resource} {depth : Nat}
    {entity : Entity} {step : RelationStep}
    (loaded : LoadedThrough (getTo registry depth) registry state owner entity step)
    (joins : ∀ relation target, owner.relation step.request.path = .ok relation →
      registry.resource relation.target = .ok target →
        (entity.get (relation.ownerField owner target)).isJoining = true)
    (enough : ∀ query : QuerySpec, query.includes = mergeRequests step.below →
      includeDepth query ≤ depth) :
    HasAlone registry state owner entity step := by
  obtain ⟨relation, target, found, isRelation, isTarget, shown, none, some⟩ := loaded
  refine ⟨relation, target, relation.related step.request.window found, isRelation, isTarget,
    shown, ?_, ?_⟩
  · intro isNull
    rw [none isNull, Relation.related_nil]
  · intro given
    refine ⟨_, found, parentQuery_eq target _ (joins relation target isRelation isTarget) given
      step.request step.below, ?_, rfl⟩
    rw [← getTo_eq_get (enough _ rfl)]
    exact some given

theorem loadedAlone_of_yields {depth : Nat} (named : registry.NamesRelations)
    (joins : memory.contents.Joins registry) (registered : spec.resource ∈ registry.resources)
    (separates : registry.Separates memory.contents spec.resource spec.includes)
    (enough : includeDepth spec ≤ depth)
    (found : (get registry spec).Yields (memory, side) entities) :
    ∀ entity ∈ entities, LoadedAlone registry (memory, side) spec entity := by
  induction depth generalizing spec entities with
  | zero =>
      intro entity _
      refine .intro ?_ ?_
      · rw [ofRequests_eq_nil enough]
        exact List.forall_mem_nil _
      · rw [ofRequests_eq_nil enough]
        exact List.forall_mem_nil _
  | succ depth induction =>
      have loads : LoadsEach registry (memory, side) (depth + 1) spec :=
        loadsEach named joins registered separates
      rw [← getTo_eq_get enough] at found
      obtain ⟨rows, fetched, hydrated⟩ := getTo_yields.mp found
      have rowsJoin := fetched_rowsJoin joins registered fetched
      obtain ⟨load, sameAttributes, rfl, each, _⟩ := loads rows entities rowsJoin hydrated
      intro entity isEntity
      obtain ⟨row, isRow, rfl⟩ := List.mem_map.mp isEntity
      refine .intro ?_ ?_
      · intro step member
        refine (each row isRow step member depth rfl).hasAlone ?_ ?_
        · intro relation target isRelation isTarget
          rw [Entity.get, sameAttributes]
          exact rowsJoin row isRow _ (Resource.mem_of_relation isRelation) target isTarget
        · intro query asks
          exact includeDepth_below member enough asks
      · intro step member relation target query related isRelation isTarget isQuery yields
        obtain ⟨sameResource, asks⟩ := parentQuery_includes isQuery
        cases separates with
        | intro separable separatesBelow =>
            refine induction ?_ ?_ (includeDepth_below member enough asks) yields
            · rw [sameResource]
              exact Registry.mem_of_resource isTarget
            · rw [sameResource, asks]
              exact separatesBelow step member relation target isRelation isTarget

/-- Whatever relations are asked for, each entity has at every level what queries for it
alone would give it. -/
theorem get_loadedAlone {after : Memory × τ} (named : registry.NamesRelations)
    (joins : memory.contents.Joins registry) (registered : spec.resource ∈ registry.resources)
    (separates : registry.Separates memory.contents spec.resource spec.includes)
    (done : (get registry spec).perform (memory, side) = (.ok entities, after)) :
    after = (memory, side) ∧
      ∀ entity ∈ entities, LoadedAlone registry (memory, side) spec entity := by
  have quiet : (get registry spec : Action (Memory × τ) _).Ensures (· = ·) fun _ => True :=
    getTo_quiet registry (includeDepth spec) spec
  obtain ⟨rfl, _⟩ := quiet.relatesOk done
  exact ⟨rfl, loadedAlone_of_yields named joins registered separates le_rfl done⟩

end Levels

/-- The nodes of a tree, by themselves. -/
def nodeRegistry : Registry := ⟨[Samples.Library.nodes]⟩

/-- A row of nodes. -/
def treeRow (id : Int) (parent rank : Value) : Record :=
  Samples.Library.nodeRow id "node" parent rank

/-- Two nodes below a third one. -/
def treeNodes : Memory where
  contents := { tables := [("nodes", [(.int 1, treeRow 1 .null .null),
    (.int 2, treeRow 2 (.int 1) (.int 3)), (.int 3, treeRow 3 (.int 1) (.int 4))])] }

theorem treeNodes_separates (requests : List RelationRequest) :
    nodeRegistry.Separates treeNodes.contents Samples.Library.nodes requests := by
  refine Registry.separates ?_ List.mem_cons_self requests
  intro owner registered entry isEntry target isTarget step
  rw [List.mem_singleton.mp (Registry.mem_of_resource isTarget)]
  rw [List.mem_singleton.mp registered] at isEntry ⊢
  have areColumns : ∀ entry ∈ Samples.Library.nodes.relations,
      entry.2.targetField Samples.Library.nodes Samples.Library.nodes ∈
        Samples.Library.nodes.columns := by
    decide +kernel
  have uncounted : ∀ entry ∈ Samples.Library.nodes.relations,
      ∀ name ∈ Samples.Library.nodes.aggregates, (AggregateRequest.mk name).alias ≠
        entry.2.targetField Samples.Library.nodes Samples.Library.nodes := by
    decide +kernel
  have joining : ∀ row ∈ (treeNodes.contents.table Samples.Library.nodes.name).rows,
      ∀ entry ∈ row, entry.2.isJoining = true := by
    decide +kernel
  exact step.separable (areColumns entry isEntry) (uncounted entry isEntry)
    fun row isRow entry isHeld => Value.orderly_of_joining (joining row isRow entry isHeld)

/-- The query for the nodes at the top, each with the child of the greatest rank and its parent. -/
def topmost : QuerySpec where
  resource := Samples.Library.nodes
  wheres := [.leaf { field := "parent_id", operator := .isNull, operand := .null }]
  includes := [{ path := "children", sort := [⟨"rank", .descending⟩], window := some ⟨1, 1⟩ },
    { path := "children.parent" }]

/-- A node as an entity. -/
def treeEntity (id : Int) (parent rank : Value) (relations : List (String × Related)) : Entity :=
  .mk "nodes" (.int id) (treeRow id parent rank) relations false

set_option maxRecDepth 10000 in
theorem get_loadedAlone_tree :
    nodeRegistry.NamesRelations ∧ treeNodes.contents.Joins nodeRegistry ∧
      nodeRegistry.Separates treeNodes.contents topmost.resource topmost.includes ∧
        ∃ entity, (get nodeRegistry topmost).Yields (treeNodes, ()) [entity] ∧
          entity.loadedPaths "" = ["children", "children.parent"] ∧
            LoadedAlone nodeRegistry (treeNodes, ()) topmost entity := by
  have named : nodeRegistry.NamesRelations := by decide +kernel
  have joins : treeNodes.contents.Joins nodeRegistry := by decide +kernel
  have isRegistered : Samples.Library.nodes ∈ nodeRegistry.resources := List.mem_cons_self
  have separates : nodeRegistry.Separates treeNodes.contents topmost.resource topmost.includes :=
    treeNodes_separates topmost.includes
  have done : (get nodeRegistry topmost).perform (treeNodes, ()) =
      (.ok [treeEntity 1 .null .null [("children", .many [treeEntity 3 (.int 1) (.int 4)
        [("parent", .single (treeEntity 1 .null .null []))]])]], (treeNodes, ())) := by
    cbv
  have alone := (get_loadedAlone named joins isRegistered separates done).2
  exact ⟨named, joins, separates, _, done, by decide +kernel, alone _ List.mem_cons_self⟩

/-! ## Where entities get something else -/

theorem not_loadedAlone {σ : Type} [Store σ] {registry : Registry} {state : σ}
    {spec query : QuerySpec} {entity : Entity} {step : RelationStep} {relation : Relation}
    {target : Resource} {found : List Entity}
    (member : step ∈ RelationStep.ofRequests spec.includes)
    (isRelation : spec.resource.relation step.request.path = .ok relation)
    (isTarget : registry.resource relation.target = .ok target)
    (given : entity.get (relation.ownerField spec.resource target) ≠ .null)
    (isQuery : parentQuery target (relation.targetField spec.resource target)
      (entity.get (relation.ownerField spec.resource target)) step.request step.below = .ok query)
    (yields : (get registry query).Yields state found)
    (other : entity.relations.lookup relation.name ≠
      some (relation.related step.request.window found)) :
    ¬ LoadedAlone registry state spec entity := by
  intro alone
  cases alone with
  | intro relations _ =>
      obtain ⟨same, sameTarget, shown, isSame, isSameTarget, isShown, _, some⟩ :=
        relations step member
      cases isRelation.symm.trans isSame
      cases isTarget.symm.trans isSameTarget
      obtain ⟨sameQuery, sameFound, isSameQuery, sameYields, rfl⟩ := some given
      cases isQuery.symm.trans isSameQuery
      cases yields.symm.trans sameYields
      exact other isShown

/-- Some entity gets something else than queries for it alone yield, although the registry is
valid and the columns that relations join by hold joining values. -/
def LoadsAmiss (registry : Registry) (memory : Memory) (spec : QuerySpec) : Prop :=
  registry.validate.isOk = true ∧ memory.contents.Joins registry ∧
    spec.resource ∈ registry.resources ∧
      ∃ entities, (get registry spec).Yields (memory, ()) entities ∧
        ∃ entity ∈ entities, ¬ LoadedAlone registry (memory, ()) spec entity

/-- Two nodes with children; the child of the second one has NaN for a rank. -/
def unevenNodes : Memory where
  contents := { tables := [("nodes", [
    (.int 1, treeRow 1 .null .null), (.int 2, treeRow 2 .null .null),
    (.int 3, treeRow 3 (.int 1) (.int 2)), (.int 4, treeRow 4 (.int 2) (.float (.nan 0))),
    (.int 5, treeRow 5 (.int 1) (.int 1))])] }

/-- The request for the children of nodes by rank. -/
def childrenByRank : RelationRequest where
  path := "children"
  sort := [⟨"rank", .ascending⟩]

/-- The query for the nodes at the top and their children by rank. -/
def topmostByRank : QuerySpec where
  resource := Samples.Library.nodes
  wheres := [.leaf { field := "parent_id", operator := .isNull, operand := .null }]
  includes := [childrenByRank]

set_option maxRecDepth 10000 in
/-- A NaN among the children of one node keeps the children of another one from being sorted. -/
theorem topmostByRank_amiss : LoadsAmiss nodeRegistry unevenNodes topmostByRank := by
  refine ⟨by decide +kernel, by decide +kernel, List.mem_cons_self, ?_⟩
  have done : (get nodeRegistry topmostByRank).Yields (unevenNodes, ()) [
      treeEntity 1 .null .null [("children", .many [treeEntity 3 (.int 1) (.int 2) [],
        treeEntity 5 (.int 1) (.int 1) []])],
      treeEntity 2 .null .null [("children", .many [
        treeEntity 4 (.int 2) (.float (.nan 0)) []])]] := by
    rw [Action.Yields]
    cbv
  have alone : (get nodeRegistry (Samples.Library.nodes.relatedSpec
      ⟨"parent_id", .eq, .int 1, .both⟩ childrenByRank [])).Yields (unevenNodes, ())
        [treeEntity 5 (.int 1) (.int 1) [], treeEntity 3 (.int 1) (.int 2) []] := by
    rw [Action.Yields]
    cbv
  have asked : (⟨"children", childrenByRank, []⟩ : RelationStep) ∈
      RelationStep.ofRequests topmostByRank.includes := List.mem_cons_self
  refine ⟨_, done, _, List.mem_cons_self, not_loadedAlone asked rfl rfl ?_ rfl alone ?_⟩
  · intro isNull
    cases isNull
  · simp [Entity.relations, treeEntity, treeRow, Relation.related, Relation.isMany, childrenByRank]

/-- Nodes that refer to their parents by nicknames, which are no column. -/
def nickedNodes : Resource := { Samples.Library.nodes with
  relations := [Samples.belongsTo "parent" "nodes" "parent_id" (some "nick"),
    Samples.hasMany "children" "nodes" "parent_id"] }

/-- A node with a nickname, by which it is its own parent. -/
def nickedLoop : Memory where
  contents := { tables := [("nodes", [(.int 5, treeRow 5 (.int 7) .null ++ [("nick", .int 7)])])] }

/-- The query for nodes and the parents whose nicknames they refer to. -/
def nickedParents : QuerySpec where
  resource := nickedNodes
  includes := [{ path := "parent" }]

set_option maxRecDepth 10000 in
/-- A query finds rows by a value that its result does not show. -/
theorem nickedParents_amiss : LoadsAmiss ⟨[nickedNodes]⟩ nickedLoop nickedParents := by
  refine ⟨by decide +kernel, by decide +kernel, List.mem_cons_self, ?_⟩
  have done : (get ⟨[nickedNodes]⟩ nickedParents).Yields (nickedLoop, ())
      [treeEntity 5 (.int 7) .null [("parent", .absent)]] := by
    rw [Action.Yields]
    cbv
  have alone : (get ⟨[nickedNodes]⟩ (nickedNodes.relatedSpec ⟨"nick", .eq, .int 7, .both⟩
      { path := "parent" } [])).Yields (nickedLoop, ()) [treeEntity 5 (.int 7) .null []] := by
    rw [Action.Yields]
    cbv
  have asked : (⟨"parent", { path := "parent" }, []⟩ : RelationStep) ∈
      RelationStep.ofRequests nickedParents.includes := List.mem_cons_self
  refine ⟨_, done, _, List.mem_cons_self, not_loadedAlone asked rfl rfl ?_ rfl alone ?_⟩
  · intro isNull
    cases isNull
  · simp [Entity.relations, treeEntity, treeRow, Relation.related, Relation.isMany]

/-- Parts that refer to the whole by a column with the name of a count. -/
def parts : Resource where
  name := "parts"
  model := { name := "Part", table := "parts",
             columns := [Samples.countedKey, Samples.optional "parts_count" .integer] }
  aggregates := ["parts"]
  relations := [Samples.hasMany "parts" "parts" "parts_count"]

/-- A row of parts. -/
def partRow (id whole : Int) : Record := [("id", .int id), ("parts_count", .int whole)]

/-- A part of itself. -/
def partLoop : Memory where
  contents := { tables := [("parts", [(.int 5, partRow 5 5)])] }

/-- The request for parts, sorted by how many parts these have. -/
def partsByCount : RelationRequest where
  path := "parts"
  sort := [⟨"parts_count", .ascending⟩]

/-- The query for everything and its parts by count. -/
def wholesByCount : QuerySpec where
  resource := parts
  includes := [partsByCount]

set_option maxRecDepth 10000 in
/-- A count hides the value that rows are joined by. -/
theorem wholesByCount_amiss : LoadsAmiss ⟨[parts]⟩ partLoop wholesByCount := by
  refine ⟨by decide +kernel, by decide +kernel, List.mem_cons_self, ?_⟩
  have done : (get ⟨[parts]⟩ wholesByCount).Yields (partLoop, ())
      [.mk "parts" (.int 5) (partRow 5 5) [("parts", .many [])] false] := by
    rw [Action.Yields]
    cbv
  have alone : (get ⟨[parts]⟩ (parts.relatedSpec ⟨"parts_count", .eq, .int 5, .both⟩
      partsByCount [])).Yields (partLoop, ())
        [.mk "parts" (.int 5) (partRow 5 1) [] false] := by
    rw [Action.Yields]
    cbv
  have asked : (⟨"parts", partsByCount, []⟩ : RelationStep) ∈
      RelationStep.ofRequests wholesByCount.includes := List.mem_cons_self
  refine ⟨_, done, _, List.mem_cons_self, not_loadedAlone asked rfl rfl ?_ rfl alone ?_⟩
  · intro isNull
    cases isNull
  · simp [Entity.relations, Relation.related, Relation.isMany, partsByCount]

/-- Nodes whose two relations share a name. -/
def kinNodes : Resource := { Samples.Library.nodes with
  relations := [("parent", ⟨"kin", .belongsTo, "nodes", "parent_id", none⟩),
    ("children", ⟨"kin", .hasMany, "nodes", "parent_id", none⟩)] }

/-- A node that is its own parent. -/
def loopNode : Memory where
  contents := { tables := [("nodes", [(.int 5, treeRow 5 (.int 5) .null)])] }

/-- The query for nodes with their parents and children. -/
def allKin : QuerySpec where
  resource := kinNodes
  includes := [{ path := "parent" }, { path := "children" }]

set_option maxRecDepth 10000 in
/-- Of two relations with one name, the one that is loaded later takes the place of the other. -/
theorem allKin_amiss : LoadsAmiss ⟨[kinNodes]⟩ loopNode allKin := by
  refine ⟨by decide +kernel, by decide +kernel, List.mem_cons_self, ?_⟩
  have done : (get ⟨[kinNodes]⟩ allKin).Yields (loopNode, ())
      [treeEntity 5 (.int 5) .null [("kin", .many [treeEntity 5 (.int 5) .null []])]] := by
    rw [Action.Yields]
    cbv
  have alone : (get ⟨[kinNodes]⟩ (kinNodes.relatedSpec ⟨"id", .eq, .int 5, .both⟩
      { path := "parent" } [])).Yields (loopNode, ()) [treeEntity 5 (.int 5) .null []] := by
    rw [Action.Yields]
    cbv
  have asked : (⟨"parent", { path := "parent" }, []⟩ : RelationStep) ∈
      RelationStep.ofRequests allKin.includes := List.mem_cons_self
  refine ⟨_, done, _, List.mem_cons_self, not_loadedAlone asked rfl rfl ?_ rfl alone ?_⟩
  · intro isNull
    cases isNull
  · simp [Entity.relations, treeEntity, treeRow, Relation.related, Relation.isMany]

/-- Entities may get something else where a NaN is sorted, where the joining column of a target
is no column, where a count has its name, and where two relations share a name. -/
theorem loadsAmiss :
    (nodeRegistry.NamesRelations ∧ LoadsAmiss nodeRegistry unevenNodes topmostByRank) ∧
      (Registry.NamesRelations ⟨[nickedNodes]⟩ ∧
        LoadsAmiss ⟨[nickedNodes]⟩ nickedLoop nickedParents) ∧
      (Registry.NamesRelations ⟨[parts]⟩ ∧ LoadsAmiss ⟨[parts]⟩ partLoop wholesByCount) ∧
        LoadsAmiss ⟨[kinNodes]⟩ loopNode allKin :=
  ⟨⟨by decide +kernel, topmostByRank_amiss⟩, ⟨by decide +kernel, nickedParents_amiss⟩,
    ⟨by decide +kernel, wholesByCount_amiss⟩, allKin_amiss⟩

end Store

end ResourceServer
