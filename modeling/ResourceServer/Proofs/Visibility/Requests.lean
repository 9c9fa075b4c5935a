import ResourceServer.Operations
import ResourceServer.Proofs.Confinement
import ResourceServer.Proofs.Visibility.Loading

/-!
# What requests name

Every reader of a request checks the fields that it finds against a list of the resource: the
one that is served, or the one that the path of a relation leads to.  So the specification that
is put together from a request names no fields but listed ones, at every depth.
-/

namespace ResourceServer

/-! ## Filters -/

namespace Filter

variable {resource : Resource}

theorem Leaf.ofEntry_field {combinator : Combinator} {entry : Record} {leaf : Leaf}
    (done : Leaf.ofEntry resource combinator entry = .ok leaf) :
    leaf.field ∈ resource.filterable := by
  unfold Leaf.ofEntry at done
  split at done
  · rename_i field _
    split at done
    · cases done
    · split at done
      · cases done
      · rename_i listed
        rw [Bool.not_eq_true, Bool.not_eq_false', List.contains_iff_mem] at listed
        obtain ⟨operator, _, done⟩ := bind_eq_ok.mp done
        dsimp only at done
        unfold Leaf.ofOperand at done
        split at done
        · rename_i made
          cases done
          rw [Leaf.make_field made]
          exact listed
        · split at done <;> cases done
  · cases done

namespace Node

theorem mem_fieldsOf {nodes : List Node} {field : String} :
    field ∈ fieldsOf nodes ↔ ∃ node ∈ nodes, field ∈ node.fields := by
  induction nodes with
  | nil => simp [fieldsOf]
  | cons node rest induction => simp [fieldsOf, induction]

theorem makeGroup_fields {combinator : Combinator} {children : List Node} {node : Node}
    (made : makeGroup combinator children = .ok node) : node.fields = fieldsOf children := by
  obtain ⟨reports, _, made⟩ := bind_eq_ok.mp made
  split at made
  · cases made
    rw [fields]
  · cases made

theorem ofEntryWith_fields {readNested : List Value → Except Error (List Node)}
    (nested : ∀ entries children, readNested entries = .ok children →
      fieldsOf children ⊆ resource.filterable)
    {entry : Value} {node : Node} (done : ofEntryWith resource readNested entry = .ok node) :
    node.fields ⊆ resource.filterable := by
  unfold ofEntryWith at done
  split at done
  · obtain ⟨combinator, _, done⟩ := bind_eq_ok.mp done
    split at done
    · obtain ⟨leaf, isLeaf, done⟩ := bind_eq_ok.mp done
      cases done
      simpa [fields] using Leaf.ofEntry_field isLeaf
    · obtain ⟨children, read, made⟩ := bind_eq_ok.mp done
      rw [makeGroup_fields made]
      exact nested _ children read
    · cases done
  · cases done

theorem fieldsOf_mapM {read : Value → Except Error Node}
    (each : ∀ entry node, read entry = .ok node → node.fields ⊆ resource.filterable)
    {entries : List Value} {nodes : List Node} (done : entries.mapM read = .ok nodes) :
    fieldsOf nodes ⊆ resource.filterable := by
  intro field isField
  obtain ⟨node, member, isField⟩ := mem_fieldsOf.mp isField
  obtain ⟨entry, _, isNode⟩ := exists_of_mem_mapM done member
  exact each entry node isNode isField

/-- Entries compare filterable fields only, however deep they are nested. -/
theorem ofEntry_fields {limit remaining : Nat} {entry : Value} {node : Node}
    (done : ofEntry resource limit remaining entry = .ok node) :
    node.fields ⊆ resource.filterable := by
  induction remaining generalizing entry node with
  | zero =>
      rw [ofEntry] at done
      refine ofEntryWith_fields (fun entries children read => ?_) done
      cases read
  | succ remaining induction =>
      rw [ofEntry] at done
      refine ofEntryWith_fields (fun entries children read => ?_) done
      exact fieldsOf_mapM (fun _ _ => induction) read

theorem ofRequest_fields {settings : Settings} {raw : Value} {filters : Option Node}
    (done : ofRequest settings resource raw = .ok filters) :
    ∀ node ∈ filters, node.fields ⊆ resource.filterable := by
  obtain ⟨entries, _, done⟩ := bind_eq_ok.mp done
  split at done
  · cases done
    nofun
  · cases done
    nofun
  · obtain ⟨children, read, done⟩ := bind_eq_ok.mp done
    obtain ⟨group, made, done⟩ := bind_eq_ok.mp done
    cases done
    intro node isGroup
    rw [Option.mem_some.mp isGroup] at made
    rw [makeGroup_fields made]
    exact fieldsOf_mapM (fun _ _ => ofEntry_fields) read
  · cases done

end Node

end Filter

/-! ## Search and order -/

section Parameters

variable {resource : Resource}

theorem SearchTerm.ofValue_fields {caseSensitive : Bool} {value : Value}
    {term : Option SearchTerm} (done : ofValue resource caseSensitive value = .ok term) :
    ∀ found ∈ term, found.fields = resource.searchable := by
  have general : ∀ text : String,
      (if resource.searchable.isEmpty then
        Except.error (Error.malformed (.notSearchable resource.name))
      else Except.ok (some (SearchTerm.mk text resource.searchable caseSensitive))) = .ok term →
        ∀ found ∈ term, found.fields = resource.searchable := by
    intro text done
    split at done
    · cases done
    · cases done
      intro found isFound
      rw [← Option.mem_some.mp isFound]
  unfold ofValue at done
  dsimp only at done
  split at done
  · cases done
    nofun
  · split at done
    · cases done
      nofun
    · exact general _ done
  · exact general _ done
  · exact general _ done
  · cases done

theorem SearchTerm.ofRequest_fields {settings : Settings} {parameters : Record}
    {term : Option SearchTerm} (done : ofRequest settings resource parameters = .ok term) :
    ∀ found ∈ term, found.fields = resource.searchable := by
  unfold ofRequest at done
  split at done
  · dsimp only at done
    split at done
    all_goals
      obtain ⟨caseSensitive, _, done⟩ := bind_eq_ok.mp done
      exact ofValue_fields done
  · exact ofValue_fields done

theorem SortDirective.make_field {field : String} {direction : Value} {directive : SortDirective}
    (done : make resource field direction = .ok directive) :
    directive.field ∈ allowedFields resource := by
  unfold make at done
  split at done
  · cases done
  · split at done
    · rename_i listed
      cases done
      exact List.contains_iff_mem.mp listed
    · cases done

theorem SortDirective.ofEntry_field {entry : Value} {directive : SortDirective}
    (done : ofEntry resource entry = .ok directive) :
    directive.field ∈ allowedFields resource := by
  unfold ofEntry at done
  split at done
  · split at done
    · exact make_field done
    · cases done
  · cases done

/-- What a decoded request orders by is allowed. -/
theorem SortDirective.ofDecoded_fields {decoded : Value} {directives : List SortDirective}
    (done : (match decoded with
      | .null => .ok []
      | .text text => do
          let words ← Parameter.words "sort" (.text text)
          words.mapM (ofWord resource)
      | .list entries => entries.mapM (ofEntry resource)
      | _ => .error (.malformed .sortShape) : Except Error (List SortDirective)) =
        .ok directives) :
    ∀ directive ∈ directives, directive.field ∈ allowedFields resource := by
  split at done
  · cases done
    nofun
  · obtain ⟨words, _, done⟩ := bind_eq_ok.mp done
    intro directive member
    obtain ⟨word, _, isDirective⟩ := exists_of_mem_mapM done member
    exact make_field isDirective
  · intro directive member
    obtain ⟨entry, _, isDirective⟩ := exists_of_mem_mapM done member
    exact ofEntry_field isDirective
  · cases done

theorem SortDirective.ofValue_fields {raw : Value} {directives : List SortDirective}
    (done : ofValue resource raw = .ok directives) :
    ∀ directive ∈ directives, directive.field ∈ allowedFields resource := by
  unfold ofValue at done
  dsimp only at done
  split at done
  · split at done
    all_goals
      obtain ⟨decoded, _, done⟩ := bind_eq_ok.mp done
      exact ofDecoded_fields done
  · obtain ⟨decoded, _, done⟩ := bind_eq_ok.mp done
    exact ofDecoded_fields done

end Parameters

/-! ## Relations -/

section Relations

variable {registry : Registry} {visible : Visibility} {owner target : Resource}

theorem follow_registered {segments : List String} {hops : List Hop}
    (followed : registry.follow owner segments = .ok hops) :
    ∀ hop ∈ hops, hop.target ∈ registry.resources := by
  induction segments generalizing owner hops with
  | nil =>
      cases followed
      exact nofun
  | cons segment rest induction =>
      obtain ⟨relation, target, more, _, known, onward, rfl⟩ := follow_cons_eq_ok.mp followed
      rw [List.forall_mem_cons]
      exact ⟨Registry.mem_of_resource known, induction onward⟩

/-- Conditions that were read against the lists of a resource name visible fields of it. -/
theorem namesVisible_of_listed (exposes : registry.Exposes visible)
    (registered : target ∈ registry.resources) {request : RelationRequest}
    (filters : ∀ node ∈ request.filters, node.fields ⊆ target.filterable)
    (sorts : ∀ directive ∈ request.sort,
      directive.field ∈ SortDirective.allowedFields target) :
    request.NamesVisible visible target := by
  have listed := exposes.listed target registered
  rw [List.forall_mem_append, List.forall_mem_append] at listed
  refine ⟨fun node member field isField => listed.1.1 field (filters node member isField), ?_⟩
  intro directive member
  cases List.mem_append.mp (sorts directive member) with
  | inl sortable => exact .inr (listed.1.2 _ sortable)
  | inr isCount => exact .inl isCount

theorem Resource.includeTarget_eq_ok {settings : Settings} {path : String}
    (found : owner.includeTarget registry settings path = .ok target) :
    ∃ hops hop, registry.follow owner (pathSegments path) = .ok hops ∧
      hops.getLast? = some hop ∧ hop.target = target := by
  unfold includeTarget at found
  dsimp only at found
  split at found
  · cases found
  · split at found
    · cases found
    · split at found
      · cases found
      · rename_i hops followed
        split at found
        · rename_i hop last
          exact ⟨hops, hop, followed, last, Except.ok.inj found⟩
        · cases found

/-- The conditions of a request are read against the resource at the end of its path. -/
theorem leadsVisible_of_target (exposes : registry.Exposes visible) {settings : Settings}
    {request : RelationRequest}
    (found : owner.includeTarget registry settings request.path = .ok target)
    (filters : ∀ node ∈ request.filters, node.fields ⊆ target.filterable)
    (sorts : ∀ directive ∈ request.sort,
      directive.field ∈ SortDirective.allowedFields target) :
    request.LeadsVisible registry visible owner := by
  obtain ⟨hops, hop, followed, last, rfl⟩ := Resource.includeTarget_eq_ok found
  have isTarget := follow_registered followed hop (List.mem_of_getLast? last)
  exact ⟨hops, hop, followed, last, namesVisible_of_listed exposes isTarget filters sorts⟩

theorem RelationRequest.ofPath_leadsVisible (exposes : registry.Exposes visible)
    {settings : Settings} {path : String} {asked : RelationRequest}
    (done : ofPath registry settings owner path = .ok asked) :
    asked.LeadsVisible registry visible owner := by
  obtain ⟨target, found, done⟩ := bind_eq_ok.mp done
  cases done
  exact leadsVisible_of_target exposes found nofun nofun

theorem RelationRequest.ofEntry_leadsVisible (exposes : registry.Exposes visible)
    {settings : Settings} {entry : Value} {asked : RelationRequest}
    (done : ofEntry registry settings owner entry = .ok asked) :
    asked.LeadsVisible registry visible owner := by
  unfold ofEntry at done
  split at done
  · split at done
    · obtain ⟨target, found, done⟩ := bind_eq_ok.mp done
      obtain ⟨window, _, done⟩ := bind_eq_ok.mp done
      obtain ⟨filters, filtered, done⟩ := bind_eq_ok.mp done
      obtain ⟨sort, sorted, done⟩ := bind_eq_ok.mp done
      cases done
      exact leadsVisible_of_target exposes found
        (Filter.Node.ofRequest_fields filtered) (SortDirective.ofValue_fields sorted)
    · cases done
  · cases done

theorem RelationRequest.ofRequest_leadVisible (exposes : registry.Exposes visible)
    {settings : Settings} {request : Request} {requests : List RelationRequest}
    (done : ofRequest registry settings owner request = .ok requests) :
    ∀ asked ∈ requests, asked.LeadsVisible registry visible owner := by
  have general : ∀ plain detailed : List RelationRequest,
      (∀ asked ∈ plain, asked.LeadsVisible registry visible owner) →
      (∀ asked ∈ detailed, asked.LeadsVisible registry visible owner) →
      (.ok (mergeRequests (plain ++ detailed)) : Except Error _) = .ok requests →
        ∀ asked ∈ requests, asked.LeadsVisible registry visible owner := by
    intro plain detailed plainLeads detailedLeads done asked member
    cases done
    cases List.mem_append.mp (mem_mergeRequests member) with
    | inl inPlain => exact plainLeads asked inPlain
    | inr inDetailed => exact detailedLeads asked inDetailed
  obtain ⟨paths, _, done⟩ := bind_eq_ok.mp done
  obtain ⟨plain, plainRead, done⟩ := bind_eq_ok.mp done
  have plainEach : ∀ asked ∈ plain, asked.LeadsVisible registry visible owner := by
    intro asked member
    obtain ⟨path, _, isAsked⟩ := exists_of_mem_mapM plainRead member
    exact ofPath_leadsVisible exposes isAsked
  dsimp only at done
  split at done
  · obtain ⟨detailed, isDetailed, done⟩ := bind_eq_ok.mp done
    cases isDetailed
    exact general plain [] plainEach nofun done
  · obtain ⟨detailed, detailedRead, done⟩ := bind_eq_ok.mp done
    refine general plain detailed plainEach (fun asked member => ?_) done
    obtain ⟨entry, _, isAsked⟩ := exists_of_mem_mapM detailedRead member
    exact ofEntry_leadsVisible exposes isAsked
  · obtain ⟨detailed, refused, _⟩ := bind_eq_ok.mp done
    cases refused

end Relations

/-! ## The specification of a request -/

/-- A count that rows are sorted by is one of those that are taken. -/
theorem QueryParameters.alias_mem_effectiveAggregates {parameters : QueryParameters}
    {resource : Resource} {name : String} (declared : name ∈ resource.aggregates)
    {directive : SortDirective} (member : directive ∈ parameters.sorts)
    (isAlias : directive.field = (AggregateRequest.mk name).alias) :
    directive.field ∈
      (parameters.effectiveAggregates resource).map AggregateRequest.alias := by
  unfold effectiveAggregates
  -- An alias that is taken once stays taken, and the name in question is reached at some point.
  have general : ∀ (names : List String) (taken : List AggregateRequest),
      directive.field ∈ taken.map AggregateRequest.alias ∨ name ∈ names →
      directive.field ∈ (names.foldl (fun aggregates name =>
        let candidate := AggregateRequest.mk name
        if (aggregates.map AggregateRequest.alias).contains candidate.alias then aggregates
        else if parameters.sorts.any (·.field == candidate.alias) then aggregates ++ [candidate]
        else aggregates) taken).map AggregateRequest.alias := by
    intro names
    induction names with
    | nil =>
        intro taken found
        exact found.resolve_right List.not_mem_nil
    | cons first rest induction =>
        intro taken found
        rw [List.foldl_cons]
        apply induction
        cases found with
        | inl already =>
            left
            dsimp only
            split
            · exact already
            · split
              · rw [List.map_append, List.mem_append]
                exact .inl already
              · exact already
        | inr isName =>
            cases List.mem_cons.mp isName with
            | inr later => exact .inr later
            | inl same =>
                subst same
                left
                dsimp only
                rw [← isAlias]
                split
                · rename_i already
                  exact List.contains_iff_mem.mp already
                · have sorted : parameters.sorts.any (·.field == directive.field) = true :=
                    List.any_eq_true.mpr ⟨directive, member, beq_self_eq_true _⟩
                  rw [if_pos sorted, List.map_append, List.mem_append]
                  right
                  simp [isAlias]
  exact general resource.aggregates parameters.aggregates (.inr declared)

theorem QuerySpec.ofParameters_eq_ok {resource : Resource} {parameters : QueryParameters}
    {requests : List RelationRequest} {scopes : List Filter.Node} {spec : QuerySpec}
    (done : ofParameters resource parameters requests scopes = .ok spec) :
    ∃ columns, spec =
      { resource
        wheres := scopes ++ parameters.filters.toList
        searchTerm := parameters.searchTerm
        includes := mergeRequests requests
        sorts := parameters.sorts
        aggregates := parameters.effectiveAggregates resource
        trashed := parameters.trashed
        columns } := by
  unfold ofParameters at done
  simp only [wheres_foldl_whereNode] at done
  split at done
  · cases done
    exact ⟨none, rfl⟩
  · obtain ⟨selected, _, done⟩ := bind_eq_ok.mp done
    cases done
    exact ⟨some _, rfl⟩

section Endpoint

variable {σ : Type} {endpoint : Endpoint σ} {visible : Visibility}

/-- What is put together from a request names visible fields, in the resource that is served and
along every relation that is to be loaded. -/
theorem Endpoint.spec_visible (exposes : endpoint.registry.Exposes visible)
    (registered : endpoint.resource ∈ endpoint.registry.resources)
    (scopes : ∀ scope ∈ endpoint.scopes, ∀ field ∈ scope.fields,
      visible endpoint.resource.name field)
    {given : Record} {request : Request} {parameters : QueryParameters}
    {requests : List RelationRequest} {spec : QuerySpec}
    (read : endpoint.readParameters given = .ok parameters)
    (asked : endpoint.readRelations request = .ok requests)
    (built : QuerySpec.ofParameters endpoint.resource parameters requests endpoint.scopes =
      .ok spec) :
    spec.resource = endpoint.resource ∧ spec.NamesVisible visible ∧
      ∀ request ∈ spec.includes,
        request.LeadsVisible endpoint.registry visible spec.resource := by
  obtain ⟨filters, filtered, read⟩ := bind_eq_ok.mp read
  obtain ⟨searchTerm, searched, read⟩ := bind_eq_ok.mp read
  obtain ⟨sorts, sorted, read⟩ := bind_eq_ok.mp read
  obtain ⟨pagination, _, read⟩ := bind_eq_ok.mp read
  obtain ⟨columns, _, read⟩ := bind_eq_ok.mp read
  obtain ⟨aggregates, _, read⟩ := bind_eq_ok.mp read
  obtain ⟨trashed, _, read⟩ := bind_eq_ok.mp read
  cases read
  obtain ⟨selected, rfl⟩ := QuerySpec.ofParameters_eq_ok built
  have listed := exposes.listed endpoint.resource registered
  rw [List.forall_mem_append, List.forall_mem_append] at listed
  obtain ⟨⟨filterable, sortable⟩, searchable⟩ := listed
  refine ⟨rfl, ⟨?_, ?_, ?_⟩, ?_⟩
  · intro node member field isField
    cases List.mem_append.mp member with
    | inl isScope => exact scopes node isScope field isField
    | inr isFilter =>
        have isFilter : node ∈ filters := by simpa using isFilter
        exact filterable field (Filter.Node.ofRequest_fields filtered node isFilter isField)
  · intro term isTerm field isField
    rw [SearchTerm.ofRequest_fields searched term isTerm] at isField
    exact searchable field isField
  · intro directive member
    cases List.mem_append.mp (SortDirective.ofValue_fields sorted directive member) with
    | inl isSortable => exact .inr (sortable _ isSortable)
    | inr isCount =>
        obtain ⟨name, declared, isAlias⟩ := List.mem_map.mp isCount
        exact .inl (QueryParameters.alias_mem_effectiveAggregates declared member isAlias.symm)
  · intro request member
    exact RelationRequest.ofRequest_leadVisible exposes asked request
      (mem_mergeRequests member)

end Endpoint

end ResourceServer
