import ResourceServer.Proofs.Carrying.Loading
import ResourceServer.Proofs.Counting
import ResourceServer.Proofs.Memory.Scopes
import ResourceServer.Proofs.Store.Pages

/-!
# Trash in what is loaded

The entities of a query without the trashed rows, and those of the trashed rows alone, are two parts
of the entities of both: the rows are, and entities are loaded in parts as they are in the whole.
The scope is that of the query itself.  What is loaded below an entity is asked for without trashed
rows, whatever the scope is, and counts leave them out at every depth.
-/

namespace ResourceServer

/-! ## What an entity shows -/

/-- An entity shows a row that a query matches: what the row holds in the selected columns, and the
counts that are asked for, each of them the number of rows that are related to it and live. -/
structure Entity.ShowsRow (registry : Registry) (contents : Contents) (spec : QuerySpec)
    (row : Record) (entity : Entity) : Prop where
  inTable : row ∈ (contents.table spec.resource.name).rows
  matching : Contents.rowMatches spec row = .ok true
  isResource : entity.resource = spec.resource.name
  isKey : entity.key = entity.get spec.resource.keyName
  names : entity.attributes.names = Contents.resultNames spec
  columns : ∀ name ∈ spec.selectedColumns, name ∉ spec.aggregateAliases →
    entity.get name = row.get name
  counts : ∀ aggregate ∈ spec.aggregates, ∃ relation target,
    spec.resource.relation aggregate.relation = .ok relation ∧
      registry.resource relation.target = .ok target ∧
        entity.get aggregate.alias = .int (contents.liveCount target
          (relation.targetField spec.resource target)
          (row.get (relation.ownerField spec.resource target)))

/-- Everything that is loaded below an entity, at any depth, shows a live row of its resource. -/
inductive Entity.LiveBelow (registry : Registry) (contents : Contents) : Entity → Prop
  | intro {entity : Entity}
      (live : ∀ entry ∈ entity.relations, ∀ related ∈ entry.2.entities, ∃ query row,
        query.resource ∈ registry.resources ∧ query.resource.isTrashed row = false ∧
          related.ShowsRow registry contents query row)
      (below : ∀ entry ∈ entity.relations, ∀ related ∈ entry.2.entities,
        related.LiveBelow registry contents) :
      entity.LiveBelow registry contents

section Rows

variable {registry : Registry} {contents : Contents} {spec : QuerySpec} {row counted : Record}

/-- Every count that a query takes of a row is one of live rows. -/
theorem exists_liveCount {aggregate : AggregateRequest} (member : aggregate ∈ spec.aggregates)
    (counts : Contents.withCounts registry contents spec row = .ok counted) :
    ∃ relation target, spec.resource.relation aggregate.relation = .ok relation ∧
      registry.resource relation.target = .ok target ∧
        counted.get aggregate.alias = .int (contents.liveCount target
          (relation.targetField spec.resource target)
          (row.get (relation.ownerField spec.resource target))) := by
  obtain ⟨count, isCount, shown⟩ := Contents.get_alias member counts
  have taken := isCount
  obtain ⟨relation, isRelation, taken⟩ := bind_eq_ok.mp taken
  obtain ⟨target, isTarget, _⟩ := bind_eq_ok.mp taken
  rw [Contents.relatedCount_eq isRelation isTarget] at isCount
  exact ⟨relation, target, isRelation, isTarget, by rw [shown, Except.ok.inj isCount]⟩

theorem Entity.ShowsRow.of_bare {entity : Entity}
    (inTable : row ∈ (contents.table spec.resource.name).rows)
    (matching : Contents.rowMatches spec row = .ok true)
    (counts : Contents.withCounts registry contents spec row = .ok counted)
    (isEntity : entity.bare =
      Store.entityOf spec.resource (counted.project (Contents.resultNames spec))) :
    entity.ShowsRow registry contents spec row := by
  have attributes : entity.attributes = counted.project (Contents.resultNames spec) := by
    cases entity
    exact congrArg Entity.attributes isEntity
  have shown : ∀ name ∈ Contents.resultNames spec, entity.get name = counted.get name := by
    intro name member
    rw [Entity.get, attributes, Record.get_project member]
  refine ⟨inTable, matching, ?_, ?_, ?_, ?_, ?_⟩
  · cases entity
    exact congrArg Entity.resource isEntity
  · rw [← Entity.key_bare, isEntity, Entity.get, attributes]
    rfl
  · rw [attributes]
    simp [Record.names, Record.project, Function.comp_def]
  · intro name isColumn uncounted
    rw [shown name (mem_distinctNames.mpr (List.mem_append_left _ isColumn))]
    rcases Contents.get_withCounts counts with isCount | kept
    · exact absurd isCount.1 uncounted
    · exact kept.2
  · intro aggregate member
    obtain ⟨relation, target, isRelation, isTarget, held⟩ := exists_liveCount member counts
    refine ⟨relation, target, isRelation, isTarget, ?_⟩
    rw [shown _ (mem_distinctNames.mpr (List.mem_append_right _ (List.mem_map_of_mem member))), held]

/-- What matches without the trashed rows is live. -/
theorem Contents.isTrashed_of_rowMatches (without : spec.trashed = .without)
    (matching : rowMatches spec row = .ok true) : spec.resource.isTrashed row = false := by
  unfold rowMatches inScope at matching
  rw [without] at matching
  cases soft : spec.resource.softDeletes with
  | false => simp [Resource.isTrashed, soft]
  | true =>
      cases trashed : spec.resource.isTrashed row with
      | false => rfl
      | true => simp [soft, trashed] at matching

end Rows

namespace Store

variable {τ : Type} {registry : Registry} {memory : Memory} {side : τ} {spec : QuerySpec}

/-! ## Below entities -/

theorem mem_relations_attach {entity : Entity} {name : String} {related : Related}
    {entry : String × Related} (member : entry ∈ (entity.attach name related).relations) :
    entry = (name, related) ∨ entry ∈ entity.relations := by
  cases entity with
  | mk resource key attributes relations created =>
      change entry ∈ (if relations.any (·.1 == name) then
        relations.map fun entry => if entry.1 == name then (name, related) else entry
          else relations ++ [(name, related)]) at member
      split at member
      · obtain ⟨before, isBefore, isEntry⟩ := List.mem_map.mp member
        split at isEntry
        · exact .inl isEntry.symm
        · exact .inr (isEntry ▸ isBefore)
      · exact (List.mem_append.mp member).symm.imp_left List.mem_singleton.mp

/-- What is attached to an entity is live when all that may be related to it is. -/
theorem liveBelow_attachTo {relation : Relation} {owner target : Resource}
    {window : Option RelationWindow} {related : List Entity} {contents : Contents} {entity : Entity}
    (live : ∀ found ∈ related, (∃ query row, query.resource ∈ registry.resources ∧
      query.resource.isTrashed row = false ∧ found.ShowsRow registry contents query row) ∧
        found.LiveBelow registry contents)
    (before : entity.LiveBelow registry contents) :
    (attachTo relation owner target window related entity).LiveBelow registry contents := by
  have attached : ∀ entry ∈ (attachTo relation owner target window related entity).relations,
      ∀ found ∈ entry.2.entities, found ∈ related ∨
        ∃ entry ∈ entity.relations, found ∈ entry.2.entities := by
    intro entry member found isFound
    rcases mem_relations_attach member with rfl | isBefore
    · exact .inl (matchesOf_subset _ _ _ (relation.entities_related _ _ isFound))
    · exact .inr ⟨entry, isBefore, isFound⟩
  cases before with
  | intro liveBefore belowBefore =>
      constructor
      · intro entry member found isFound
        rcases attached entry member found isFound with isNew | ⟨old, isOld, isFound⟩
        · exact (live found isNew).1
        · exact liveBefore old isOld found isFound
      · intro entry member found isFound
        rcases attached entry member found isFound with isNew | ⟨old, isOld, isFound⟩
        · exact (live found isNew).2
        · exact belowBefore old isOld found isFound

/-- Steps keep what is below entities live, when the queries for related entities yield nothing else. -/
theorem foldlM_loadRelation_liveBelow {state : Memory × τ} {owner : Resource}
    {getRelated : QuerySpec → Action (Memory × τ) (List Entity)} {contents : Contents}
    (quiet : ∀ spec, (getRelated spec).Ensures (· = ·) fun _ => True)
    (live : ∀ query found, query.resource ∈ registry.resources → query.trashed = .without →
      (getRelated query).Yields state found → ∀ entity ∈ found,
        (∃ row, query.resource.isTrashed row = false ∧
          entity.ShowsRow registry contents query row) ∧ entity.LiveBelow registry contents)
    {steps : List RelationStep} {entities loaded : List Entity}
    (before : ∀ entity ∈ entities, entity.LiveBelow registry contents)
    (done : (steps.foldlM (loadRelation getRelated registry owner) entities).Yields state loaded) :
    ∀ entity ∈ loaded, entity.LiveBelow registry contents := by
  induction steps generalizing entities with
  | nil =>
      cases done
      exact before
  | cons step rest induction =>
      rw [List.foldlM_cons] at done
      obtain ⟨middle, first, later⟩ :=
        (loadRelation_ensures quiet registry owner entities step).yields_bind done
      obtain ⟨relation, isRelation, opened⟩ := Action.perform_compute_eq_ok.mp first
      obtain ⟨target, isTarget, _⟩ := Action.perform_compute_eq_ok.mp opened
      obtain ⟨related, asked, rfl⟩ := (loadRelation_asks quiet isRelation isTarget).mp first
      refine induction (fun entity isEntity => ?_) later
      obtain ⟨bare, isBare, rfl⟩ := List.mem_map.mp isEntity
      refine liveBelow_attachTo (fun found isFound => ?_) (before bare isBare)
      split at asked
      · subst asked
        cases isFound
      · obtain ⟨query, isQuery, yields⟩ := asked
        obtain ⟨leaf, rfl⟩ := relatedQuery_eq_ok isQuery
        have registered := Registry.mem_of_resource isTarget
        obtain ⟨⟨row, isLive, shows⟩, below⟩ := live _ related registered rfl yields found isFound
        exact ⟨⟨_, row, registered, isLive, shows⟩, below⟩

/-- Fetched rows that are hydrated show rows that match. -/
theorem hydrateTo_showsRow {depth : Nat} {rows : List Record} {entities : List Entity}
    {offset limit : Option Int}
    (fetched : memory.contents.fetchRows registry spec offset limit = .ok rows)
    (hydrated : (hydrateTo registry depth spec rows).Yields (memory, side) entities) :
    ∀ entity ∈ entities, ∃ row, entity.ShowsRow registry memory.contents spec row := by
  intro entity member
  have loads := ((hydrateTo_ensures registry depth spec rows).relatesOk hydrated).2
  obtain ⟨row, inTable, matching, counted, counts, isEntity, _⟩ := loads.source fetched entity member
  exact ⟨row, .of_bare inTable matching counts isEntity⟩

theorem liveBelow_entitiesOf (contents : Contents) (rows : List Record) :
    ∀ entity ∈ rows.map (entityOf spec.resource), entity.LiveBelow registry contents := by
  intro entity isEntity
  obtain ⟨row, _, rfl⟩ := List.mem_map.mp isEntity
  exact .intro (List.forall_mem_nil _) (List.forall_mem_nil _)

/-- Everything that is loaded below rows is live, up to any depth. -/
theorem hydrateTo_liveBelow {depth : Nat} {rows : List Record} {entities : List Entity}
    (done : (hydrateTo registry depth spec rows).Yields (memory, side) entities) :
    ∀ entity ∈ entities, entity.LiveBelow registry memory.contents := by
  induction depth generalizing spec rows entities with
  | zero =>
      rw [hydrateTo] at done
      obtain ⟨_, rfl⟩ := entitiesOf_eq_ok.mp (Action.yields_ofExcept.mp done)
      exact liveBelow_entitiesOf memory.contents rows
  | succ depth induction =>
      by_cases none : rows = []
      · subst none
        cases done
        exact List.forall_mem_nil _
      · obtain ⟨_, done⟩ := (hydrateTo_yields none).mp done
        refine foldlM_loadRelation_liveBelow (getTo_quiet registry depth) ?_
          (liveBelow_entitiesOf memory.contents rows) done
        intro query found registered without yields entity isEntity
        obtain ⟨rows, fetched, hydrated⟩ := getTo_yields.mp yields
        obtain ⟨row, shows⟩ := hydrateTo_showsRow fetched hydrated entity isEntity
        have live := Contents.isTrashed_of_rowMatches without shows.matching
        exact ⟨⟨row, live, shows⟩, induction hydrated entity isEntity⟩

/-! ## Parts of a result -/

/-- What is loaded below rows does not depend on the scope that they were fetched in. -/
theorem hydrateTo_withTrashed {depth : Nat} (scope : TrashedScope) (rows : List Record) :
    (hydrateTo registry depth (spec.withTrashed scope) rows : Action (Memory × τ) _) =
      hydrateTo registry depth spec rows := by
  apply hydrateTo_congr
  · rfl
  · rfl

theorem yields_count {total : Int} :
    (count registry spec : Action (Memory × τ) _).Yields (memory, side) total ↔
      ∃ number, Contents.countRows spec (memory.contents.table spec.resource.name).rows = .ok number ∧
        total = Int.ofNat number := by
  rw [Action.Yields, Memory.perform_count, Prod.mk.injEq, and_iff_left rfl]
  cases Contents.countRows spec (memory.contents.table spec.resource.name).rows with
  | error error => simp [Except.map]
  | ok number => simp [Except.map, eq_comm]

section Scopes

variable {entities : List Entity} {after : Memory × τ}

/-- In every scope a query yields those of all its entities that show rows of the scope. -/
theorem get_withTrashed (soft : spec.resource.softDeletes = true)
    (orderly : memory.contents.OrderlySelection registry (spec.withTrashed .included))
    (narrows : registry.Narrows memory.contents spec.resource spec.includes)
    (done : (get registry (spec.withTrashed .included)).perform (memory, side) = (.ok entities, after)) :
    after = (memory, side) ∧ ∃ shown : List (Record × Entity), entities = shown.map Prod.snd ∧
      (∀ pair ∈ shown, pair.2.ShowsRow registry memory.contents (spec.withTrashed .included) pair.1) ∧
      ∀ scope : TrashedScope, (get registry (spec.withTrashed scope)).Yields (memory, side)
        ((shown.filter fun pair => scope.admits (spec.resource.isTrashed pair.1)).map Prod.snd) := by
  obtain ⟨rfl, _⟩ := get_eq_ok done
  rw [← getTo_eq_get le_rfl] at done
  obtain ⟨rows, fetched, hydrated⟩ := getTo_yields.mp done
  obtain ⟨pairs, rfl, each, scopes⟩ := Contents.fetchRows_withTrashed soft orderly fetched
  have loads := ((hydrateTo_ensures registry _ _ _).relatesOk hydrated).2
  rw [hydrateTo_withTrashed] at hydrated
  obtain ⟨load, _, rfl, parts⟩ := hydrateTo_parts narrows hydrated
  refine ⟨rfl, pairs.map fun pair => (pair.1, load (pair.2.project (Contents.resultNames spec))),
    by simp [Function.comp_def], ?_, fun scope => ?_⟩
  · intro pair member
    obtain ⟨given, isGiven, rfl⟩ := List.mem_map.mp member
    obtain ⟨inTable, matching, counts⟩ := each given isGiven
    have bare := loads.2
    rw [List.map_map, List.map_inj_left] at bare
    exact .of_bare inTable matching counts (bare _ (List.mem_map_of_mem isGiven))
  · rw [← getTo_eq_get le_rfl]
    refine getTo_yields.mpr ⟨_, scopes scope, ?_⟩
    have kept : (pairs.filter fun pair => scope.admits (spec.resource.isTrashed pair.1)) ⊆ pairs :=
      fun _ => List.mem_of_mem_filter
    have part := parts _ (List.map_subset (fun pair => pair.2.project (Contents.resultNames spec)) kept)
    have shown : ((pairs.map fun pair =>
        (pair.1, load (pair.2.project (Contents.resultNames spec)))).filter fun pair =>
          scope.admits (spec.resource.isTrashed pair.1)).map Prod.snd =
        ((pairs.filter fun pair => scope.admits (spec.resource.isTrashed pair.1)).map fun pair =>
          pair.2.project (Contents.resultNames spec)).map load := by
      simp [List.filter_map, Function.comp_def]
    rw [shown, hydrateTo_withTrashed]
    exact part

theorem count_included (soft : spec.resource.softDeletes = true) {total : Int} :
    (count registry (spec.withTrashed .included) : Action (Memory × τ) _).Yields (memory, side) total ↔
      ∃ live trashed,
        (count registry (spec.withTrashed .without) : Action (Memory × τ) _).Yields (memory, side) live ∧
        (count registry (spec.withTrashed .only) : Action (Memory × τ) _).Yields (memory, side) trashed ∧
        total = live + trashed := by
  simp only [yields_count]
  constructor
  · rintro ⟨number, counted, rfl⟩
    obtain ⟨live, trashed, isLive, isTrashed, rfl⟩ := (Contents.countRows_included soft).mp counted
    exact ⟨_, _, ⟨live, isLive, rfl⟩, ⟨trashed, isTrashed, rfl⟩, Int.natCast_add live trashed⟩
  · rintro ⟨_, _, ⟨live, isLive, rfl⟩, ⟨trashed, isTrashed, rfl⟩, rfl⟩
    exact ⟨live + trashed, (Contents.countRows_included soft).mpr ⟨_, _, isLive, isTrashed, rfl⟩,
      (Int.natCast_add live trashed).symm⟩

theorem get_withTrashed_of_hard (hard : spec.resource.softDeletes = false) (scope : TrashedScope) :
    (get registry (spec.withTrashed scope)).perform (memory, side) =
      (get registry spec).perform (memory, side) := by
  rw [get, get, Action.perform_bind, Action.perform_bind, Memory.perform_fetchRows,
    Memory.perform_fetchRows, Contents.fetchRows_withTrashed_of_hard hard]
  cases memory.contents.fetchRows registry spec none none with
  | error error => rfl
  | ok rows => exact congrArg (Action.perform · (memory, side)) (hydrateTo_withTrashed scope rows)

theorem count_withTrashed_of_hard (hard : spec.resource.softDeletes = false) (scope : TrashedScope) :
    (count registry (spec.withTrashed scope) : Action (Memory × τ) _).perform (memory, side) =
      (count registry spec : Action (Memory × τ) _).perform (memory, side) := by
  rw [Memory.perform_count, Memory.perform_count, Contents.countRows_withTrashed_of_hard hard]
  rfl

/-- Whatever is loaded below entities is live, and so is what is counted for any of them. -/
theorem get_liveBelow (done : (get registry spec).Yields (memory, side) entities) :
    ∀ entity ∈ entities, (∃ row, entity.ShowsRow registry memory.contents spec row) ∧
      entity.LiveBelow registry memory.contents := by
  rw [← getTo_eq_get le_rfl] at done
  obtain ⟨rows, fetched, hydrated⟩ := getTo_yields.mp done
  exact fun entity member =>
    ⟨hydrateTo_showsRow fetched hydrated entity member, hydrateTo_liveBelow hydrated entity member⟩

end Scopes

/-- The entities without trashed rows and those of trashed rows alone are the two parts of the
entities of both, and so are their counts.  Without soft deletes the scopes are one, and in no scope
is anything trashed loaded below entities or counted for them. -/
theorem scopes_partition (registry : Registry) (memory : Memory) (side : τ) (spec : QuerySpec) :
    (spec.resource.softDeletes = true →
      memory.contents.OrderlySelection registry (spec.withTrashed .included) →
        registry.Narrows memory.contents spec.resource spec.includes → ∀ entities after,
          (get registry (spec.withTrashed .included)).perform (memory, side) = (.ok entities, after) →
            after = (memory, side) ∧ ∃ shown : List (Record × Entity),
              entities = shown.map Prod.snd ∧
              (∀ pair ∈ shown,
                pair.2.ShowsRow registry memory.contents (spec.withTrashed .included) pair.1) ∧
              (get registry (spec.withTrashed .without)).Yields (memory, side) ((shown.filter fun pair =>
                (pair.1.get spec.resource.deletedAtColumn).isNull).map Prod.snd) ∧
              (get registry (spec.withTrashed .only)).Yields (memory, side) ((shown.filter fun pair =>
                !(pair.1.get spec.resource.deletedAtColumn).isNull).map Prod.snd)) ∧
    (spec.resource.softDeletes = true → ∀ total : Int,
      (count registry (spec.withTrashed .included) : Action (Memory × τ) _).Yields (memory, side) total ↔
        ∃ live trashed,
          (count registry (spec.withTrashed .without) : Action (Memory × τ) _).Yields (memory, side) live ∧
          (count registry (spec.withTrashed .only) : Action (Memory × τ) _).Yields (memory, side) trashed ∧
          total = live + trashed) ∧
    (spec.resource.softDeletes = false → ∀ scope : TrashedScope,
      (get registry (spec.withTrashed scope)).perform (memory, side) =
          (get registry spec).perform (memory, side) ∧
        (count registry (spec.withTrashed scope) : Action (Memory × τ) _).perform (memory, side) =
          (count registry spec : Action (Memory × τ) _).perform (memory, side)) ∧
    ∀ (scope : TrashedScope) (entities : List Entity),
      (get registry (spec.withTrashed scope)).Yields (memory, side) entities →
        ∀ entity ∈ entities,
          (∃ row, entity.ShowsRow registry memory.contents (spec.withTrashed scope) row) ∧
            entity.LiveBelow registry memory.contents := by
  refine ⟨?_, fun soft _ => count_included soft, ?_, fun _ _ => get_liveBelow⟩
  · intro soft orderly narrows entities after done
    obtain ⟨rfl, shown, isShown, shows, scopes⟩ := get_withTrashed soft orderly narrows done
    have without := scopes .without
    have only := scopes .only
    simp only [TrashedScope.admits, Resource.isTrashed, soft, Bool.true_and, Bool.not_not]
      at without only
    exact ⟨rfl, shown, isShown, shows, without, only⟩
  · exact fun hard scope => ⟨get_withTrashed_of_hard hard scope, count_withTrashed_of_hard hard scope⟩

/-- Nodes that can be trashed. -/
def branches : Resource := { Samples.Library.nodes with
  model := { Samples.Library.node with
    columns := Samples.Library.node.columns ++ [Samples.optional "removed_on" .moment] }
  softDeletes := true
  deletedAtColumn := "removed_on" }

/-- The registry of nodes that can be trashed. -/
def branchRegistry : Registry := ⟨[branches]⟩

/-- A row of nodes that can be trashed. -/
def branchRow (id : Int) (parent rank removed : Value) : Record :=
  treeRow id parent rank ++ [("removed_on", removed)]

/-- The moment at which nodes are trashed. -/
def felledAt : Value := .moment Samples.Library.trashedAt

/-- Nodes that are found by their numbers. -/
def branchesOf (rows : List Record) : Memory where
  contents := { tables := [("nodes", rows.map fun row => (row.get "id", row))] }

/-- Two nodes at the top, the second one trashed, and a node below the trashed one. -/
def felled : Memory := branchesOf [branchRow 1 .null (.int 2) .null,
  branchRow 2 .null (.int 4) felledAt, branchRow 3 (.int 2) (.int 1) .null]

/-- The query for all nodes by rank, each with its children by rank. -/
def branchesByRank : QuerySpec where
  resource := branches
  sorts := [⟨"rank", .ascending⟩]
  includes := [childrenByRank]

theorem felled_joining : ∀ row ∈ (felled.contents.table "nodes").rows,
    (row.get "id").isJoining = true ∧ (row.get "rank").isJoining = true := by
  decide +kernel

theorem felled_orderlySelection :
    felled.contents.OrderlySelection branchRegistry (branchesByRank.withTrashed .included) := by
  apply Contents.OrderlyFor.selection
  intro row inTable
  obtain ⟨key, rank⟩ := felled_joining row inTable
  refine ⟨Value.orderly_of_joining key, fun directive isSort => ?_⟩
  rw [List.mem_singleton.mp isSort]
  exact Value.orderly_of_joining rank

theorem felled_narrows :
    branchRegistry.Narrows felled.contents branchesByRank.resource branchesByRank.includes := by
  have first : RelationStep.ofRequests branchesByRank.includes =
    [⟨"children", childrenByRank, []⟩] := rfl
  have second : mergeRequests [] = [] := List.mergeSort_nil
  constructor
  · intro step member relation target _ isTarget
    rw [first, List.mem_singleton] at member
    subst member
    rw [List.mem_singleton.mp (Registry.mem_of_resource isTarget)]
    refine ⟨List.not_mem_nil, fun row inTable => ?_⟩
    obtain ⟨key, rank⟩ := felled_joining row inTable
    refine ⟨Value.orderly_of_joining key, fun directive isSort => ?_⟩
    rw [List.mem_singleton.mp isSort]
    exact Value.orderly_of_joining rank
  · intro step member relation target _ _
    rw [first, List.mem_singleton] at member
    subst member
    rw [second]
    exact .intro (List.forall_mem_nil _) (List.forall_mem_nil _)

/-- The entity of a node. -/
def branchEntity (row : Record) (relations : List (String × Related)) : Entity :=
  .mk "nodes" (row.get "id") row relations false

set_option maxRecDepth 10000 in
theorem scopes_partition_felled :
    branchesByRank.resource.softDeletes = true ∧
    felled.contents.OrderlySelection branchRegistry (branchesByRank.withTrashed .included) ∧
    branchRegistry.Narrows felled.contents branchesByRank.resource branchesByRank.includes ∧
    (∃ entities, entities.length = 3 ∧
      (get branchRegistry (branchesByRank.withTrashed .included)).Yields (felled, ()) entities ∧
      (∃ shown : List (Record × Entity), entities = shown.map Prod.snd ∧
        (∀ pair ∈ shown, pair.2.ShowsRow branchRegistry felled.contents
          (branchesByRank.withTrashed .included) pair.1) ∧
        (get branchRegistry (branchesByRank.withTrashed .without)).Yields (felled, ())
          ((shown.filter fun pair => (pair.1.get "removed_on").isNull).map Prod.snd) ∧
        (get branchRegistry (branchesByRank.withTrashed .only)).Yields (felled, ())
          ((shown.filter fun pair => !(pair.1.get "removed_on").isNull).map Prod.snd)) ∧
      ∀ entity ∈ entities, entity.LiveBelow branchRegistry felled.contents) ∧
    (∃ live trashed : Int,
      (count branchRegistry (branchesByRank.withTrashed .without) : Action (Memory × Unit) _).Yields
        (felled, ()) live ∧
      (count branchRegistry (branchesByRank.withTrashed .only) : Action (Memory × Unit) _).Yields
        (felled, ()) trashed ∧ 3 = live + trashed) ∧
    treeListing.resource.softDeletes = false ∧
    ∀ scope : TrashedScope, (get nodeRegistry (treeListing.withTrashed scope)).perform (treeNodes, ()) =
      (get nodeRegistry treeListing).perform (treeNodes, ()) := by
  have done : (get branchRegistry (branchesByRank.withTrashed .included)).perform (felled, ()) =
      (.ok [branchEntity (branchRow 3 (.int 2) (.int 1) .null) [("children", .many [])],
        branchEntity (branchRow 1 .null (.int 2) .null) [("children", .many [])],
        branchEntity (branchRow 2 .null (.int 4) felledAt) [("children", .many [
          branchEntity (branchRow 3 (.int 2) (.int 1) .null) []])]], (felled, ())) := by
    cbv
  have counted : (count branchRegistry (branchesByRank.withTrashed .included) :
      Action (Memory × Unit) _).Yields (felled, ()) 3 := by
    rw [Action.Yields]
    cbv
  obtain ⟨parts, counts, _, live⟩ := scopes_partition branchRegistry felled () branchesByRank
  exact ⟨rfl, felled_orderlySelection, felled_narrows,
    ⟨_, rfl, done, (parts rfl felled_orderlySelection felled_narrows _ _ done).2,
      fun entity member => (live .included _ done entity member).2⟩,
    (counts rfl 3).mp counted, rfl,
    fun scope => ((scopes_partition nodeRegistry treeNodes () treeListing).2.2.1 rfl scope).1⟩

/-! ## Where scopes show something else -/

/-- What is yielded without trashed rows is no part of what is yielded with them. -/
def ScopesAmiss (registry : Registry) (memory : Memory) (spec : QuerySpec) : Prop :=
  registry.validate.isOk = true ∧ spec.resource.softDeletes = true ∧ ∃ live,
    (get registry (spec.withTrashed .without)).Yields (memory, ()) live ∧
      ¬ ∃ all, (get registry (spec.withTrashed .included)).Yields (memory, ()) all ∧ live.Sublist all

theorem scopesAmiss_of_yields {registry : Registry} {memory : Memory} {spec : QuerySpec}
    {live all : List Entity} (valid : registry.validate.isOk = true)
    (soft : spec.resource.softDeletes = true)
    (isLive : (get registry (spec.withTrashed .without)).Yields (memory, ()) live)
    (isAll : (get registry (spec.withTrashed .included)).Yields (memory, ()) all)
    (apart : ¬ live.Sublist all) : ScopesAmiss registry memory spec := by
  refine ⟨valid, soft, live, isLive, ?_⟩
  rintro ⟨other, yields, part⟩
  obtain rfl : all = other := Except.ok.inj (congrArg Prod.fst (isAll.symm.trans yields))
  exact apart part

/-- Three nodes, the trashed one in the middle with a NaN as its rank. -/
def unrankedBranch : Memory := branchesOf [branchRow 1 .null (.int 2) .null,
  branchRow 2 .null (.float (.nan 0)) felledAt, branchRow 3 .null (.int 1) .null]

/-- The query for all nodes by rank. -/
def barksByRank : QuerySpec where
  resource := branches
  sorts := [⟨"rank", .ascending⟩]

set_option maxRecDepth 10000 in
/-- Without the NaN of the trashed node, the live ones are sorted. -/
theorem unrankedBranch_scopesAmiss : ScopesAmiss branchRegistry unrankedBranch barksByRank := by
  have live : (get branchRegistry (barksByRank.withTrashed .without)).Yields (unrankedBranch, ())
      [branchEntity (branchRow 3 .null (.int 1) .null) [],
        branchEntity (branchRow 1 .null (.int 2) .null) []] := by
    rw [Action.Yields]
    cbv
  have all : (get branchRegistry (barksByRank.withTrashed .included)).Yields (unrankedBranch, ())
      [branchEntity (branchRow 1 .null (.int 2) .null) [],
        branchEntity (branchRow 2 .null (.float (.nan 0)) felledAt) [],
        branchEntity (branchRow 3 .null (.int 1) .null) []] := by
    rw [Action.Yields]
    cbv
  refine scopesAmiss_of_yields (by decide +kernel) rfl live all fun part => ?_
  have keys : [Value.int 3, .int 1].Sublist [.int 1, .int 2, .int 3] := part.map Entity.key
  simp [List.sublist_cons_iff] at keys

/-- Two nodes at the top, and below the trashed one a node with a NaN as its rank. -/
def unrankedLeaf : Memory := branchesOf [branchRow 1 .null .null .null, branchRow 2 .null .null felledAt,
  branchRow 3 (.int 1) (.int 2) .null, branchRow 4 (.int 2) (.float (.nan 0)) .null,
  branchRow 5 (.int 1) (.int 1) .null]

/-- The query for the nodes at the top, each with its children by rank. -/
def topBranches : QuerySpec where
  resource := branches
  wheres := [.leaf { field := "parent_id", operator := .isNull, operand := .null }]
  includes := [childrenByRank]

set_option maxRecDepth 10000 in
/-- Without the children of the trashed node, those of the live one are sorted. -/
theorem unrankedLeaf_scopesAmiss : ScopesAmiss branchRegistry unrankedLeaf topBranches := by
  have live : (get branchRegistry (topBranches.withTrashed .without)).Yields (unrankedLeaf, ())
      [branchEntity (branchRow 1 .null .null .null) [("children", .many [
        branchEntity (branchRow 5 (.int 1) (.int 1) .null) [],
        branchEntity (branchRow 3 (.int 1) (.int 2) .null) []])]] := by
    rw [Action.Yields]
    cbv
  have all : (get branchRegistry (topBranches.withTrashed .included)).Yields (unrankedLeaf, ())
      [branchEntity (branchRow 1 .null .null .null) [("children", .many [
          branchEntity (branchRow 3 (.int 1) (.int 2) .null) [],
          branchEntity (branchRow 5 (.int 1) (.int 1) .null) []])],
        branchEntity (branchRow 2 .null .null felledAt) [("children", .many [
          branchEntity (branchRow 4 (.int 2) (.float (.nan 0)) .null) []])]] := by
    rw [Action.Yields]
    cbv
  refine scopesAmiss_of_yields (by decide +kernel) rfl live all fun part => ?_
  simp [List.sublist_cons_iff, branchEntity, branchRow, treeRow, Samples.Library.nodeRow] at part

/-- Two nodes with ranks that have no common order. -/
def mixedBranches : Memory := branchesOf [branchRow 1 .null (.int 2) .null,
  branchRow 2 .null (.text "last") felledAt]

set_option maxRecDepth 10000 in
/-- The live node alone can be sorted. -/
theorem mixedBranches_scopesAmiss : ScopesAmiss branchRegistry mixedBranches barksByRank := by
  have live : (get branchRegistry (barksByRank.withTrashed .without)).Yields (mixedBranches, ())
      [branchEntity (branchRow 1 .null (.int 2) .null) []] := by
    rw [Action.Yields]
    cbv
  have failed : (get branchRegistry (barksByRank.withTrashed .included)).perform (mixedBranches, ()) =
      (.error (.plain .type), (mixedBranches, ())) := by
    cbv
  refine ⟨by decide +kernel, rfl, _, live, ?_⟩
  rintro ⟨all, yields, _⟩
  cases failed.symm.trans yields

/-- Parts of parts that can be trashed. -/
def spareParts : Resource := { parts with
  model := { parts.model with
    columns := parts.model.columns ++ [Samples.optional "deleted_at" .moment] }
  softDeletes := true }

/-- A row of parts that can be trashed. -/
def sparePart (id whole : Int) (deleted : Value) : Record :=
  partRow id whole ++ [("deleted_at", deleted)]

/-- Three parts, the first one a part of the third, and that one a part of the trashed one. -/
def scrapped : Memory where
  contents := { tables := [("parts", [(.int 1, sparePart 1 3 .null),
    (.int 2, sparePart 2 0 felledAt), (.int 3, sparePart 3 2 .null)])] }

/-- The query for all parts that can be trashed, and their parts by count. -/
def sparesByCount : QuerySpec where
  resource := spareParts
  includes := [partsByCount]

/-- The entity of a part that can be trashed. -/
def spareEntity (row : Record) (relations : List (String × Related)) : Entity :=
  .mk "parts" (row.get "id") row relations false

set_option maxRecDepth 10000 in
/-- By a count in the place of the value that rows are joined by, a live part is given a part of the
trashed one. -/
theorem scrapped_scopesAmiss : ScopesAmiss ⟨[spareParts]⟩ scrapped sparesByCount := by
  have live : (get ⟨[spareParts]⟩ (sparesByCount.withTrashed .without)).Yields (scrapped, ())
      [spareEntity (sparePart 1 3 .null) [("parts", .many [])],
        spareEntity (sparePart 3 2 .null) [("parts", .many [])]] := by
    rw [Action.Yields]
    cbv
  have all : (get ⟨[spareParts]⟩ (sparesByCount.withTrashed .included)).Yields (scrapped, ())
      [spareEntity (sparePart 1 3 .null) [("parts", .many [spareEntity (sparePart 3 1 .null) []])],
        spareEntity (sparePart 2 0 felledAt) [("parts", .many [])],
        spareEntity (sparePart 3 2 .null) [("parts", .many [])]] := by
    rw [Action.Yields]
    cbv
  refine scopesAmiss_of_yields (by decide +kernel) rfl live all fun part => ?_
  simp [List.sublist_cons_iff, spareEntity, sparePart, partRow] at part

/-- Trashed rows may change what is yielded of the live ones where rows are sorted by NaN or by values
without a common order, and where a count has the name of the field that they are joined by. -/
theorem scopesAmiss :
    ScopesAmiss branchRegistry unrankedBranch barksByRank ∧
      ScopesAmiss branchRegistry unrankedLeaf topBranches ∧
        ScopesAmiss branchRegistry mixedBranches barksByRank ∧
          ScopesAmiss ⟨[spareParts]⟩ scrapped sparesByCount :=
  ⟨unrankedBranch_scopesAmiss, unrankedLeaf_scopesAmiss, mixedBranches_scopesAmiss,
    scrapped_scopesAmiss⟩

end Store

end ResourceServer
