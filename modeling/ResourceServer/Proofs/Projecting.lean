import ResourceServer.Proofs.Carrying.Answers
import ResourceServer.Proofs.Resolution.Answers

/-!
# Sparse projections

When only some columns are wanted, the columns that relations are joined by are read beside them.
So each relation finds the same related entities as if everything were read, and an entity is the
one that the whole query yields, cut to fewer attributes.  Loading commutes with cutting, one
relation at a time.
-/

namespace ResourceServer

/-! ## Cutting attributes -/

theorem Record.project_project {row : Record} {names shown : List String}
    (fewer : names ⊆ shown) :
    (row.project shown).project names = row.project names := by
  unfold Record.project
  refine List.map_congr_left fun name isName => ?_
  exact congrArg (Prod.mk name) (Record.get_project (fewer isName))

/-- The entity with some of its attributes only. -/
def Entity.cutTo (names : List String) (entity : Entity) : Entity :=
  entity.withAttributes (entity.attributes.project names)

namespace Entity

variable {names : List String} {entity : Entity} {name : String}

theorem get_cutTo (isName : name ∈ names) : (entity.cutTo names).get name = entity.get name := by
  cases entity
  exact Record.get_project isName

theorem cutTo_attach (entity : Entity) (name : String) (related : Related) :
    (entity.attach name related).cutTo names = (entity.cutTo names).attach name related := by
  cases entity
  rfl

end Entity

/-! ## Rows -/

namespace Contents

variable {registry : Registry} {contents : Contents} {spec : QuerySpec}

/-- Which rows are found does not depend on the columns. -/
theorem selectRows_select (columns : Option (List String)) (rows : List Record) :
    selectRows registry contents (spec.select columns) rows =
      selectRows registry contents spec rows := by
  induction rows with
  | nil => rfl
  | cons row rest induction =>
      rw [selectRows, selectRows, induction]
      rfl

/-- Reading fewer columns yields the same rows, cut to these columns. -/
theorem fetchRows_select {columns : Option (List String)}
    (fewer : resultNames (spec.select columns) ⊆ resultNames spec) (offset limit : Option Int) :
    contents.fetchRows registry (spec.select columns) offset limit =
      List.map (Record.project · (resultNames (spec.select columns))) <$>
        contents.fetchRows registry spec offset limit := by
  unfold fetchRows
  rw [selectRows_select, map_bind]
  refine bind_congr fun rows => ?_
  change (if rows.any fun row => !row.has spec.resource.keyName then _ else _) = _
  split
  · rfl
  · rw [map_bind]
    refine bind_congr fun byKey => ?_
    rw [map_bind]
    refine bind_congr fun sorted => ?_
    change Except.ok _ = Except.ok _
    rw [List.map_map]
    exact congrArg Except.ok (List.map_congr_left fun row _ => (Record.project_project fewer).symm)

end Contents

/-! ## Loading -/

namespace Store

section Relations

variable {σ : Type} {registry : Registry} {owner : Resource} {names : List String}
variable {getRelated : QuerySpec → Action σ (List Entity)}

/-- A step joins by one of some columns of its owner. -/
def JoinsBy (registry : Registry) (owner : Resource) (names : List String) (step : RelationStep) :
    Prop :=
  ∀ relation target, owner.relation step.request.path = .ok relation →
    registry.resource relation.target = .ok target → relation.ownerField owner target ∈ names

/-- A relation is loaded for cut entities as for whole ones, when they keep what it joins by. -/
theorem loadRelation_cutTo {step : RelationStep} (joins : JoinsBy registry owner names step)
    (entities : List Entity) :
    loadRelation getRelated registry owner (entities.map (Entity.cutTo names)) step =
      List.map (Entity.cutTo names) <$> loadRelation getRelated registry owner entities step := by
  unfold loadRelation
  rw [map_bind]
  refine Action.ofExcept_bind_congr fun relation declared => ?_
  rw [map_bind]
  refine Action.ofExcept_bind_congr fun target known => ?_
  have isName : (relation.joiningFields owner target).1 ∈ names :=
    joins relation target declared known
  generalize relation.joiningFields owner target = fields at isName ⊢
  obtain ⟨ownerField, targetField⟩ := fields
  change ownerField ∈ names at isName
  -- Whatever is found, it is the same that is attached.
  have attached : ∀ related : List Entity,
      (entities.map (Entity.cutTo names)).map (fun entity =>
        entity.attach relation.name (relation.related step.request.window
          (matchesOf targetField (entity.get ownerField) related))) =
      (entities.map fun entity =>
        entity.attach relation.name (relation.related step.request.window
          (matchesOf targetField (entity.get ownerField) related))).map (Entity.cutTo names) := by
    intro related
    rw [List.map_map, List.map_map]
    refine List.map_congr_left fun entity _ => ?_
    rw [Function.comp_apply, Function.comp_apply, Entity.cutTo_attach, Entity.get_cutTo isName]
  dsimp only
  rw [joiningValues_map fun entity => Entity.get_cutTo isName]
  split
  · rw [pure_bind, pure_bind, map_pure, attached]
  · rw [map_bind]
    refine bind_congr fun query => ?_
    rw [map_bind]
    refine bind_congr fun related => ?_
    rw [map_pure, attached]

theorem foldlM_loadRelation_cutTo {steps : List RelationStep}
    (joins : ∀ step ∈ steps, JoinsBy registry owner names step) (entities : List Entity) :
    steps.foldlM (loadRelation getRelated registry owner) (entities.map (Entity.cutTo names)) =
      List.map (Entity.cutTo names) <$>
        steps.foldlM (loadRelation getRelated registry owner) entities := by
  induction steps generalizing entities with
  | nil => simp
  | cons step rest induction =>
      obtain ⟨first, others⟩ := List.forall_mem_cons.mp joins
      rw [List.foldlM_cons, List.foldlM_cons, loadRelation_cutTo first, bind_map_left, map_bind]
      exact bind_congr fun loaded => induction others loaded

end Relations

theorem entitiesOf_project {resource : Resource} {names : List String}
    (isKey : resource.keyName ∈ names) (rows : List Record) :
    entitiesOf resource (rows.map (Record.project · names)) =
      .ok ((rows.map (entityOf resource)).map (Entity.cutTo names)) := by
  refine entitiesOf_eq_ok.mpr ⟨?_, ?_⟩
  · intro row isRow
    obtain ⟨whole, _, rfl⟩ := List.mem_map.mp isRow
    exact Record.has_project.mpr isKey
  · rw [List.map_map, List.map_map]
    refine List.map_congr_left fun row _ => ?_
    exact congrArg (Entity.mk resource.name · (row.project names) [] false)
      (Record.get_project isKey).symm

section Hydrating

variable {σ : Type} [Store σ] {registry : Registry} {spec : QuerySpec} {names : List String}

/-- Making entities of cut rows and loading their relations yields the cut entities. -/
theorem hydrate_select (isKey : spec.resource.keyName ∈ names)
    (joins : ∀ step ∈ RelationStep.ofRequests spec.includes,
      JoinsBy registry spec.resource names step)
    {rows : List Record} (keyed : ∀ row ∈ rows, row.has spec.resource.keyName = true)
    (columns : Option (List String)) :
    (hydrate registry (spec.select columns) (rows.map (Record.project · names)) : Action σ _) =
      List.map (Entity.cutTo names) <$> hydrate registry spec rows := by
  have whole : entitiesOf spec.resource rows = .ok (rows.map (entityOf spec.resource)) :=
    entitiesOf_eq_ok.mpr ⟨keyed, rfl⟩
  have cut := entitiesOf_project isKey rows
  unfold hydrate
  change hydrateTo registry (includeDepth spec) _ _ = _
  cases includeDepth spec with
  | zero =>
      rw [hydrateTo, hydrateTo, whole]
      change Action.ofExcept (entitiesOf spec.resource _) = _
      rw [cut]
      rfl
  | succ depth =>
      rw [hydrateTo, hydrateTo, whole]
      change Action.ofExcept (entitiesOf spec.resource _) >>= _ = _
      rw [cut]
      simp only [Action.ofExcept_ok, pure_bind, List.isEmpty_map]
      split
      · rfl
      · exact foldlM_loadRelation_cutTo joins _

end Hydrating

/-- Reading fewer columns, with those among them that relations are joined by, yields the same
entities, cut to these columns. -/
theorem get_select {registry : Registry} {spec : QuerySpec} {columns : Option (List String)}
    (fewer : Contents.resultNames (spec.select columns) ⊆ Contents.resultNames spec)
    (isKey : spec.resource.keyName ∈ Contents.resultNames (spec.select columns))
    (joins : ∀ step ∈ RelationStep.ofRequests spec.includes,
      JoinsBy registry spec.resource (Contents.resultNames (spec.select columns)) step) :
    (Store.get registry (spec.select columns) : Action Memory _) =
      List.map (Entity.cutTo (Contents.resultNames (spec.select columns))) <$>
        Store.get registry spec := by
  funext memory
  have fetches : ∀ query, (fetchRows registry query none none : Action Memory _).perform memory =
      (memory.contents.fetchRows registry query none none, memory) := fun _ => rfl
  change Action.perform _ memory = Action.perform _ memory
  unfold Store.get
  rw [map_bind, Action.perform_bind, Action.perform_bind, fetches, fetches,
    Contents.fetchRows_select fewer]
  cases fetched : memory.contents.fetchRows registry spec none none with
  | error error => rfl
  | ok rows =>
      have keyed : ∀ row ∈ rows, row.has spec.resource.keyName = true := by
        obtain ⟨_, _, sorted, _, _, _, _, rfl⟩ := Contents.fetchRows_eq_ok.mp fetched
        intro row isRow
        obtain ⟨whole, _, rfl⟩ := List.mem_map.mp isRow
        exact Record.has_project.mpr (fewer isKey)
      exact congrArg (Action.perform · memory) (hydrate_select isKey joins keyed columns)

end Store

/-! ## Requests -/

theorem Record.get?_erase {record : Record} {name other : String} (different : other ≠ name) :
    (record.erase name).get? other = record.get? other := by
  unfold get? erase
  induction record with
  | nil => rfl
  | cons entry rest induction =>
      obtain ⟨first, value⟩ := entry
      rw [List.filter_cons, Entries.lookup_cons]
      split
      · rw [Entries.lookup_cons, induction]
      · rename_i isErased
        have same : first = name := by simpa using isErased
        rw [if_neg (same ▸ different), induction]

theorem Record.get?_erase_self (record : Record) (name : String) :
    (record.erase name).get? name = none := by
  rw [get?, ← Option.not_isSome_iff_eq_none, Entries.lookup_isSome]
  simp [erase]

/-- A request that names no columns says the same about everything else. -/
theorem QueryParameters.ofRequest_erase {settings : Settings} {resource : Resource}
    {given : Record} {parameters : QueryParameters}
    (read : ofRequest settings resource given = .ok parameters) :
    ofRequest settings resource (given.erase "fields") =
      .ok { parameters with columns := none } := by
  have kept : ∀ name, name ≠ "fields" → (given.erase "fields").get? name = given.get? name :=
    fun _ => Record.get?_erase
  have shown : ∀ name, name ≠ "fields" → (given.erase "fields").get name = given.get name :=
    fun name different => congrArg (fun found : Option Value => found.getD .null)
      (kept name different)
  have search : SearchTerm.ofRequest settings resource (given.erase "fields") =
      SearchTerm.ofRequest settings resource given := by
    rw [SearchTerm.ofRequest, SearchTerm.ofRequest, shown "search" (by decide)]
  have pages : PaginationRequest.ofRequest settings.pagination (given.erase "fields") =
      PaginationRequest.ofRequest settings.pagination given := by
    rw [PaginationRequest.ofRequest, PaginationRequest.ofRequest, kept "page" (by decide),
      kept "limit" (by decide)]
  have allColumns : readColumns resource (given.erase "fields") = .ok none := by
    have none : (given.erase "fields").get "fields" = .null :=
      congrArg (fun found : Option Value => found.getD .null)
        (Record.get?_erase_self given "fields")
    rw [readColumns, none]
    rfl
  have counts : readAggregates resource (given.erase "fields") = readAggregates resource given := by
    rw [readAggregates, readAggregates, shown "with_count" (by decide)]
  have scope : TrashedScope.ofRequest resource (given.erase "fields") =
      TrashedScope.ofRequest resource given := by
    rw [TrashedScope.ofRequest, TrashedScope.ofRequest, kept "only_trashed" (by decide),
      kept "with_trashed" (by decide)]
  obtain ⟨filters, isFilters, read⟩ := bind_eq_ok.mp read
  obtain ⟨term, isTerm, read⟩ := bind_eq_ok.mp read
  obtain ⟨sorts, isSorts, read⟩ := bind_eq_ok.mp read
  obtain ⟨pagination, isPagination, read⟩ := bind_eq_ok.mp read
  obtain ⟨columns, _, read⟩ := bind_eq_ok.mp read
  obtain ⟨aggregates, isAggregates, read⟩ := bind_eq_ok.mp read
  obtain ⟨trashed, isTrashed, read⟩ := bind_eq_ok.mp read
  cases read
  rw [ofRequest, shown "filters" (by decide), search, shown "sort" (by decide), pages, allColumns,
    counts, scope, isFilters, isTerm, isSorts, isPagination, isAggregates, isTrashed]
  rfl

/-- A column of a resource by which it is joined to what some requests start with. -/
def Registry.JoinsThrough (registry : Registry) (owner : Resource)
    (requests : List RelationRequest) (column : String) : Prop :=
  ∃ request ∈ requests, ∃ relation target,
    owner.relation (RelationStep.head request.path) = .ok relation ∧
      registry.resource relation.target = .ok target ∧ relation.ownerField owner target = column

theorem Registry.joinsThrough_mergeRequests {registry : Registry} {owner : Resource}
    {requests : List RelationRequest} {column : String} :
    registry.JoinsThrough owner (mergeRequests requests) column ↔
      registry.JoinsThrough owner requests column := by
  constructor
  · rintro ⟨request, isRequest, joins⟩
    exact ⟨request, mem_mergeRequests isRequest, joins⟩
  · rintro ⟨request, isRequest, joins⟩
    obtain ⟨kept, isKept, samePath⟩ :=
      List.mem_map.mp (path_mem_mergeRequests.mpr (List.mem_map_of_mem isRequest))
    exact ⟨kept, isKept, samePath ▸ joins⟩

/-- Every step of some requests joins by a column that is selected for them. -/
theorem QuerySpec.Selects.joinsBy {registry : Registry} {owner : Resource}
    {requests : List RelationRequest} {names : List String}
    (selects : Selects registry owner requests names) (registered : owner ∈ registry.resources)
    (addresses : registry.Addresses owner requests) :
    ∀ step ∈ RelationStep.ofRequests requests, Store.JoinsBy registry owner names step := by
  intro step member relation target declared known
  obtain ⟨name, isName, rfl⟩ := List.mem_map.mp member
  obtain ⟨request, isRequest, rfl⟩ := List.mem_map.mp (mem_distinctNames.mp isName)
  have isDirect := addresses.directRequest_path registered declared known
  change owner.relation (RelationStep.directRequest _ requests).path = .ok relation at declared
  rw [isDirect] at declared
  exact selects.joined request isRequest relation target declared known

/-- Where relations are declared, the selected columns are the key, the wanted ones, and those
that relations are joined by. -/
theorem Resource.mem_projection {registry : Registry} {resource : Resource}
    {requests : List RelationRequest} {visible : Visibility} {columns selected : List String}
    (leads : ∀ request ∈ requests, request.LeadsVisible registry visible resource)
    (projected : resource.projection columns requests = .ok selected) (name : String) :
    name = resource.keyName ∨ name ∈ selected ↔
      name = resource.keyName ∨ name ∈ columns ∨ registry.JoinsThrough resource requests name := by
  have declared : ∀ request ∈ requests, ∃ relation,
      resource.relation (RelationStep.head request.path) = .ok relation := by
    intro request isRequest
    obtain ⟨relation, _, isRelation, _⟩ := (leads request isRequest).first
    exact ⟨relation, isRelation⟩
  obtain ⟨others, again, mem_selected⟩ := exists_projection columns declared
  obtain rfl : selected = others := Except.ok.inj (projected.symm.trans again)
  rw [mem_selected]
  constructor
  · rintro (isKey | isKey | ⟨request, isRequest, relation, isRelation, isColumn⟩ | isWanted)
    · exact .inl isKey
    · exact .inl isKey
    · obtain ⟨found, target, isFound, known, _⟩ := (leads request isRequest).first
      obtain rfl : relation = found := Except.ok.inj (isRelation.symm.trans isFound)
      refine .inr (.inr ⟨request, isRequest, relation, target, isRelation, known, ?_⟩)
      rw [Relation.ownerField_eq, isColumn, Option.getD_some]
    · exact .inr (.inl isWanted)
  · rintro (isKey | isWanted | ⟨request, isRequest, relation, target, isRelation, known, rfl⟩)
    · exact .inl isKey
    · exact .inr (.inr (.inr isWanted))
    · rw [Relation.ownerField_eq]
      cases isColumn : relation.ownerColumn? with
      | none => exact .inl rfl
      | some column =>
          exact .inr (.inr (.inl ⟨request, isRequest, relation, isRelation, isColumn⟩))

/-- A request for some columns is compiled to what it is compiled to without them, restricted to
the columns to read. -/
theorem QuerySpec.ofParameters_select {resource : Resource} {parameters : QueryParameters}
    {requests : List RelationRequest} {columns selected : List String}
    (wanted : parameters.columns = some columns)
    (projected : resource.projection columns (mergeRequests requests) = .ok selected)
    (scopes : List Filter.Node) :
    ∃ full, ofParameters resource { parameters with columns := none } requests scopes = .ok full ∧
      full.resource = resource ∧ full.includes = mergeRequests requests ∧ full.columns = none ∧
        ofParameters resource parameters requests scopes = .ok (full.select (some selected)) := by
  rw [ofParameters_eq, ofParameters_eq, wanted]
  simp only [projected]
  exact ⟨_, rfl, rfl, rfl, rfl, rfl⟩

theorem Contents.mem_resultNames_select {spec : QuerySpec} {selected : List String}
    {name : String} :
    name ∈ resultNames (spec.select (some selected)) ↔
      name ∈ distinctNames (spec.resource.keyName :: distinctNames selected) ∨
        name ∈ spec.aggregateAliases := by
  rw [resultNames, mem_distinctNames, List.mem_append]
  rfl

section Endpoint

variable {σ : Type} {endpoint : Endpoint σ} {given : Record} {request : Request}
  {parameters : QueryParameters} {requests : List RelationRequest} {columns : List String}

/-- Asking for some columns only cuts attributes: every entity is the one that the same request
without these columns yields, with the same relations, cut to its key, the wanted columns, those
that the requested relations are joined by and the counts.  A path that ends in a dot must not be
the name of a relation. -/
theorem Endpoint.sparse_cutTo (consistent : endpoint.registry.Consistent)
    (registered : endpoint.resource ∈ endpoint.registry.resources)
    (read : endpoint.readParameters given = .ok parameters)
    (wanted : parameters.columns = some columns)
    (asked : endpoint.readRelations request = .ok requests)
    (apart : ∀ asked ∈ requests, asked.EndsInDot → endpoint.registry.TellsPathsApart) :
    endpoint.readParameters (given.erase "fields") = .ok { parameters with columns := none } ∧
      ∃ sparse full,
        QuerySpec.ofParameters endpoint.resource parameters requests endpoint.scopes =
          .ok sparse ∧
        QuerySpec.ofParameters endpoint.resource { parameters with columns := none } requests
          endpoint.scopes = .ok full ∧
        (∀ name, name ∈ Contents.resultNames sparse ↔ name = endpoint.resource.keyName ∨
          name ∈ columns ∨ endpoint.registry.JoinsThrough endpoint.resource requests name ∨
            name ∈ sparse.aggregateAliases) ∧
        Contents.resultNames sparse ⊆ Contents.resultNames full ∧
        (Store.get endpoint.registry sparse : Action Memory _) =
          List.map (Entity.cutTo (Contents.resultNames sparse)) <$>
            Store.get endpoint.registry full := by
  refine ⟨QueryParameters.ofRequest_erase read, ?_⟩
  have addresses := Registry.Addresses.ofRequests asked apart
  have known : columns ⊆ endpoint.resource.columns :=
    (QueryParameters.ofRequest_names read).1 columns wanted
  obtain ⟨selected, projected, selects⟩ :=
    QuerySpec.exists_selects consistent registered addresses.leads known
  obtain ⟨full, built, isResource, includes, whole, narrowed⟩ :=
    QuerySpec.ofParameters_select wanted projected endpoint.scopes
  have inSparse : ∀ name, name ∈ Contents.resultNames (full.select (some selected)) ↔
      name ∈ distinctNames (endpoint.resource.keyName :: distinctNames selected) ∨
        name ∈ full.aggregateAliases := by
    intro name
    rw [Contents.mem_resultNames_select, isResource]
  have fewer : Contents.resultNames (full.select (some selected)) ⊆
      Contents.resultNames full := by
    intro name isName
    rw [Contents.resultNames, mem_distinctNames, List.mem_append, QuerySpec.selectedColumns, whole,
      isResource]
    exact ((inSparse name).mp isName).imp_left fun isColumn => selects.columns isColumn
  refine ⟨full.select (some selected), full, narrowed, built, fun name => ?_, fewer,
    Store.get_select fewer ?_ ?_⟩
  · rw [inSparse, mem_distinctNames, List.mem_cons, mem_distinctNames,
      Resource.mem_projection addresses.leads projected, Registry.joinsThrough_mergeRequests,
      or_assoc, or_assoc]
    rfl
  · rw [isResource, inSparse, mem_distinctNames]
    exact .inl List.mem_cons_self
  · rw [includes, isResource]
    intro step member relation target declared known
    exact (inSparse _).mpr (.inl (selects.joinsBy registered addresses step member relation target
      declared known))

end Endpoint

theorem Endpoint.sparse_cutTo_books :
    titledBooks.registry.Consistent ∧
      titledBooks.readParameters byLabels.query = .ok byLabelsParameters ∧
        titledBooks.readRelations byLabels = .ok [{ path := "labels.book" }] ∧
          ∃ sparse full,
            QuerySpec.ofParameters titledBooks.resource byLabelsParameters
              [{ path := "labels.book" }] titledBooks.scopes = .ok sparse ∧
            QuerySpec.ofParameters titledBooks.resource { byLabelsParameters with columns := none }
              [{ path := "labels.book" }] titledBooks.scopes = .ok full ∧
            (Store.get titledBooks.registry sparse : Action Memory _) =
              List.map (Entity.cutTo (Contents.resultNames sparse)) <$>
                Store.get titledBooks.registry full := by
  have read : titledBooks.readParameters byLabels.query = .ok byLabelsParameters := by rfl
  have asked : titledBooks.readRelations byLabels = .ok [{ path := "labels.book" }] := by
    with_unfolding_all rfl
  have registered : titledBooks.resource ∈ titledBooks.registry.resources :=
    List.mem_cons_of_mem _ List.mem_cons_self
  obtain ⟨_, sparse, full, narrowed, built, _, _, same⟩ :=
    Endpoint.sparse_cutTo library_consistent registered read rfl asked (by decide +kernel)
  exact ⟨library_consistent, read, asked, sparse, full, narrowed, built, same⟩

/-! ## Where a joining column is missing -/

/-- Nodes with a relation under the empty name, and with one whose name is the path to it and that
is joined by another column. -/
def branching : Resource := { overlapping with
  relations := [Samples.belongsTo "a" "nodes" "parent_id", Samples.belongsTo "" "nodes" "parent_id",
    Samples.belongsTo "a." "nodes" "rank"] }

/-- The endpoint of these nodes. -/
def branchingEndpoint : Endpoint Memory where
  registry := ⟨[branching]⟩
  now := Samples.Library.trashedAt
  binding := { resource := branching }

/-- A node that leads to itself by its rank. -/
def rankedLoop : Memory :=
  StoreCall.after [.insert branching [("id", .int 1), ("rank", .int 1)]] {}

/-- The node as it is read with its rank: what it leads to is found. -/
def wholeLoop : Entity :=
  let attributes : Record :=
    [("id", .int 1), ("name", .text "node"), ("parent_id", .null), ("rank", .int 1)]
  .mk "nodes" (.int 1) attributes [("a.", .single (.ofRow "nodes" (.int 1) attributes))] false

/-- The node as it is read without its rank: what it leads to is lost. -/
def sparseLoop : Entity :=
  .mk "nodes" (.int 1) [("id", .int 1), ("parent_id", .null), ("name", .text "node")]
    [("a.", .absent)] false

/-- The specification of what the path that ends in a dot leads to. -/
def pastDotSpec (columns : Option (List String)) : QuerySpec where
  resource := branching
  includes := [{ path := "a." }]
  columns := columns

/-- The columns for a path that ends in a dot are those of its first relation.  The relation that
is loaded for the path is another one, and it is lost when only some columns are read. -/
theorem dotted_sparse_uncut :
    branchingEndpoint.registry.Consistent ∧
      branchingEndpoint.resource ∈ branchingEndpoint.registry.resources ∧
        branchingEndpoint.readParameters [("include", .text "a."), ("fields", .text "name")] =
          .ok { columns := some ["name"] } ∧
          branchingEndpoint.readRelations pastDot = .ok [{ path := "a." }] ∧
            QuerySpec.ofParameters branching { columns := some ["name"] } [{ path := "a." }] [] =
              .ok (pastDotSpec (some ["id", "parent_id", "name"])) ∧
            QuerySpec.ofParameters branching {} [{ path := "a." }] [] = .ok (pastDotSpec none) ∧
              ((Store.get branchingEndpoint.registry
                (pastDotSpec (some ["id", "parent_id", "name"])) : Action Memory _).perform
                  rankedLoop).1 = .ok [sparseLoop] ∧
              ((Store.get branchingEndpoint.registry (pastDotSpec none) : Action Memory _).perform
                rankedLoop).1 = .ok [wholeLoop] ∧
              ∀ names, sparseLoop ≠ wholeLoop.cutTo names := by
  have consistent : branchingEndpoint.registry.Consistent := by
    refine ⟨?_, rfl, ?_⟩
    · decide +kernel
    · decide +kernel
  refine ⟨consistent, List.mem_cons_self, rfl, ?_, ?_, ?_, ?_, ?_, ?_⟩
  · with_unfolding_all rfl
  · with_unfolding_all rfl
  · with_unfolding_all rfl
  · with_unfolding_all rfl
  · with_unfolding_all rfl
  · intro names same
    cases congrArg Entity.relations same

end ResourceServer
