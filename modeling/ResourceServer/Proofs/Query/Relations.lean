import ResourceServer.Proofs.Filter.Grammar
import ResourceServer.Proofs.Query.Merging
import ResourceServer.Proofs.Visibility.Requests
import ResourceServer.Samples.Library

/-!
# Relations that a request asks for

A request asks for relations by plain paths and by entries that state conditions.  Whatever is
accepted leads along declared relations, no deeper than the settings allow, on a path that an
include pattern covers, and its conditions are read against the resource at the end of the path.
-/

namespace ResourceServer

/-! ## Paths -/

theorem length_splitAtEvery {separator : Char} (characters : List Char) :
    (splitAtEvery separator characters).length = characters.count separator + 1 := by
  induction characters with
  | nil => rfl
  | cons character rest induction =>
      by_cases same : character = separator
      · rw [same, splitAtEvery_cons_separator, List.length_cons, induction, List.count_cons_self]
      · obtain ⟨first, segments, split, splitCons⟩ := splitAtEvery_cons_ne same rest
        rw [splitCons, List.count_cons_of_ne same, ← induction, split]
        rfl

/-- A path has one more segment than dots. -/
theorem length_pathSegments (path : String) :
    (pathSegments path).length = path.toList.count '.' + 1 := by
  rw [pathSegments, List.length_map, length_splitAtEvery]

/-- One of two beginnings of a text that end at a dot leads through the other. -/
theorem dotted_beginnings {first rest second more : String}
    (same : first ++ "." ++ rest = second ++ "." ++ more) :
    first = second ∨ (∃ between, first = second ++ "." ++ between) ∨
      ∃ between, second = first ++ "." ++ between := by
  have characters : first.toList ++ '.' :: rest.toList = second.toList ++ '.' :: more.toList := by
    simpa [String.toList_append] using congrArg String.toList same
  have longer : ∀ {short long : String} {between : List Char},
      long.toList = short.toList ++ between → (∃ after more, '.' :: after = between ++ '.' :: more) →
        long = short ∨ ∃ between, long = short ++ "." ++ between := by
    rintro short long between split ⟨after, more, starts⟩
    cases between with
    | nil => exact .inl (String.toList_injective (by rw [split, List.append_nil]))
    | cons character between =>
        rw [List.cons_append, List.cons.injEq] at starts
        refine .inr ⟨String.ofList between, String.toList_injective ?_⟩
        rw [split, ← starts.1]
        simp [String.toList_append]
  rcases List.append_eq_append_iff.mp characters with ⟨between, split, starts⟩ | ⟨between, split, starts⟩
  · obtain same | below := longer split ⟨_, _, starts⟩
    · exact .inl same.symm
    · exact .inr (.inr below)
  · obtain same | below := longer split ⟨_, _, starts⟩
    · exact .inl same
    · exact .inr (.inl below)

/-- Declared relations lead from one resource to another, name by name. -/
inductive Registry.LeadsTo (registry : Registry) : Resource → List String → Resource → Prop
  | here (owner : Resource) : LeadsTo registry owner [] owner
  | onward {owner next target : Resource} {name : String} {rest : List String}
      {relation : Relation} (declared : owner.relations.lookup name = some relation)
      (known : registry.find? relation.target = some next)
      (below : LeadsTo registry next rest target) : LeadsTo registry owner (name :: rest) target

/-- A path that can be followed leads to the target of its last step. -/
theorem Registry.leadsTo_of_follow {registry : Registry} {owner : Resource}
    {segments : List String} {hops : List Hop}
    (followed : registry.follow owner segments = .ok hops) :
    registry.LeadsTo owner segments ((hops.getLast?.map Hop.target).getD owner) := by
  induction segments generalizing owner hops with
  | nil =>
      cases followed
      exact .here owner
  | cons name rest induction =>
      rw [follow] at followed
      split at followed
      · cases followed
      · rename_i relation declared
        split at followed
        · cases followed
        · rename_i next known
          cases onward : registry.follow next rest with
          | error fault =>
              rw [onward] at followed
              cases followed
          | ok more =>
              rw [onward] at followed
              cases followed
              have below := induction onward
              refine .onward declared known ?_
              rw [List.getLast?_cons]
              cases last : more.getLast? with
              | none =>
                  rw [last] at below
                  exact below
              | some hop =>
                  rw [last] at below
                  exact below

/-! ## Include patterns -/

namespace Resource

/-- An include pattern covers a path that it equals or leads through.  With a wildcard at its end
it covers the path before that and every path below. -/
def Covers (pattern path : String) : Prop :=
  pattern = path ∨ (∃ below, pattern = path ++ "." ++ below) ∨
    ∃ beginning, pattern = beginning ++ ".*" ∧
      (path = beginning ∨ ∃ below, path = beginning ++ "." ++ below)

theorem concretePath_wildcard (beginning : String) :
    Registry.concretePath (beginning ++ ".*") = beginning := by
  apply String.toList_injective
  simp [Registry.concretePath, String.toList_append]

theorem concretePath_eq (pattern : String) :
    Registry.concretePath pattern = pattern ∨ ∃ beginning, pattern = beginning ++ ".*" := by
  unfold Registry.concretePath
  dsimp only
  split
  · rename_i wildcard
    have reversed := List.take_append_drop 2 pattern.toList.reverse
    rw [wildcard] at reversed
    refine .inr ⟨String.ofList (pattern.toList.reverse.drop 2).reverse, String.toList_injective ?_⟩
    rw [← List.reverse_inj, ← reversed]
    simp [String.toList_append]
  · exact .inl rfl

theorem covers_iff (pattern path : String) :
    patternAllows pattern path = true ↔ pattern = "*" ∨ Covers pattern path := by
  unfold patternAllows
  simp only [Bool.or_eq_true, Bool.and_eq_true, beq_iff_eq, bne_iff_ne, continues_iff]
  constructor
  · rintro (((star | same) | ⟨different, below⟩) | ⟨below, above⟩)
    · exact .inl star
    · exact .inr (.inl same)
    · obtain whole | ⟨beginning, rfl⟩ := concretePath_eq pattern
      · exact absurd whole different
      · rw [concretePath_wildcard] at below
        exact .inr (.inr (.inr ⟨beginning, rfl, below⟩))
    · obtain whole | ⟨beginning, rfl⟩ := concretePath_eq pattern
      · exact .inr (.inr (.inl ⟨below, by rw [← above, whole]⟩))
      · rw [concretePath_wildcard] at above
        exact .inr (.inr (.inl ⟨below ++ ".*", by rw [above, String.append_assoc]⟩))
  · have wildcard : ∀ beginning, pattern = beginning ++ ".*" →
        (path = beginning ∨ ∃ below, path = beginning ++ "." ++ below) →
          Registry.concretePath pattern ≠ pattern ∧
            (path = Registry.concretePath pattern ∨
              ∃ below, path = Registry.concretePath pattern ++ "." ++ below) := by
      rintro beginning rfl below
      rw [concretePath_wildcard]
      refine ⟨fun same => ?_, below⟩
      have lengths := congrArg String.length same
      simp at lengths
    rintro (star | same | ⟨below, above⟩ | ⟨beginning, isWildcard, below⟩)
    · exact .inl (.inl (.inl star))
    · exact .inl (.inl (.inr same))
    · obtain whole | ⟨beginning, isWildcard⟩ := concretePath_eq pattern
      · exact .inr ⟨below, by rw [whole, above]⟩
      · have joined : beginning ++ "." ++ "*" = path ++ "." ++ below := by
          rw [← above, isWildcard, String.append_assoc]
          rfl
        rcases dotted_beginnings joined with same | ⟨between, longer⟩ | shorter
        · exact .inl (.inr (wildcard beginning isWildcard (.inl same.symm)))
        · rw [isWildcard, concretePath_wildcard]
          exact .inr ⟨between, longer⟩
        · exact .inl (.inr (wildcard beginning isWildcard (.inr shorter)))
    · exact .inl (.inr (wildcard beginning isWildcard below))

/-- A path may be loaded when the patterns hold a star or one that covers it. -/
theorem allowsPath_iff {resource : Resource} {path : String} :
    resource.allowsPath path = true ↔
      "*" ∈ resource.includes ∨ ∃ pattern ∈ resource.includes, Covers pattern path := by
  rw [allowsPath, List.any_eq_true]
  simp only [covers_iff]
  constructor
  · rintro ⟨pattern, listed, rfl | covers⟩
    · exact .inl listed
    · exact .inr ⟨pattern, listed, covers⟩
  · rintro (listed | ⟨pattern, listed, covers⟩)
    · exact ⟨"*", listed, .inl rfl⟩
    · exact ⟨pattern, listed, .inr covers⟩

/-- A pattern that covers a path covers those on the way to it. -/
theorem Covers.above {pattern path below : String} (covers : Covers pattern (path ++ "." ++ below)) :
    Covers pattern path := by
  rcases covers with rfl | ⟨rest, rfl⟩ | ⟨beginning, rfl, rfl | ⟨rest, same⟩⟩
  · exact .inr (.inl ⟨below, rfl⟩)
  · exact .inr (.inl ⟨below ++ "." ++ rest, by simp only [String.append_assoc]⟩)
  · exact .inr (.inl ⟨below ++ ".*", by simp only [String.append_assoc]⟩)
  · rcases dotted_beginnings same with rfl | longer | ⟨between, rfl⟩
    · exact .inr (.inr ⟨path, rfl, .inl rfl⟩)
    · exact .inr (.inr ⟨beginning, rfl, .inr longer⟩)
    · exact .inr (.inl ⟨between ++ ".*", by simp only [String.append_assoc]⟩)

theorem allowsPath_above {resource : Resource} {path below : String}
    (allowed : resource.allowsPath (path ++ "." ++ below) = true) :
    resource.allowsPath path = true := by
  rw [allowsPath_iff] at allowed ⊢
  obtain star | ⟨pattern, listed, covers⟩ := allowed
  · exact .inl star
  · exact .inr ⟨pattern, listed, covers.above⟩

end Resource

/-! ## Conditions -/

theorem Filter.Node.ofRequest_depth {settings : Settings} {resource : Resource} {raw : Value}
    {filters : Option Filter.Node} (done : ofRequest settings resource raw = .ok filters) :
    ∀ node ∈ filters, node.depth ≤ settings.maxNestedDepth + 1 := by
  obtain ⟨decoded, _, done⟩ := bind_eq_ok.mp done
  cases decoded with
  | text text => cases done
  | list entries =>
      have notText : ∀ text, Value.list entries ≠ .text text := nofun
      have depths := (ofRequest_grammar settings resource notText).2.2.1
      intro node isNode
      rw [Option.mem_def] at isNode
      subst isNode
      exact depths node done
  | null =>
      cases done
      exact nofun
  | _ => cases done

theorem Parameter.integer_le {name : String} {minimum number : Int} {value : Value}
    (read : Parameter.integer name minimum value = .ok number) : minimum ≤ number := by
  have bounded : ∀ given : Except Error Int, (do
      let number ← given
      if number < minimum then .error (.malformed (.belowMinimum name minimum number))
      else .ok number : Except Error Int) = .ok number → minimum ≤ number := by
    intro given read
    obtain ⟨found, _, read⟩ := bind_eq_ok.mp read
    split at read
    · cases read
    · cases read
      omega
  unfold integer at read
  dsimp only at read
  split at read
  · exact bounded _ read
  · split at read
    · exact bounded _ read
    · exact bounded _ read
  · exact bounded _ read

theorem RelationWindow.ofEntry_positive {path : String} {entry : Record}
    {window : Option RelationWindow} (read : ofEntry path entry = .ok window) :
    ∀ found ∈ window, 1 ≤ found.limit ∧ 1 ≤ found.page := by
  unfold ofEntry at read
  split at read
  · cases read
    exact nofun
  · obtain ⟨limit, isLimit, read⟩ := bind_eq_ok.mp read
    obtain ⟨page, isPage, read⟩ := bind_eq_ok.mp read
    cases read
    intro found isFound
    rw [← Option.mem_some.mp isFound]
    exact ⟨Parameter.integer_le isLimit, Parameter.integer_le isPage⟩

theorem SortDirective.mem_allowedFields {resource : Resource} {field : String} :
    field ∈ allowedFields resource ↔
      field ∈ resource.sortable ∨ ∃ name ∈ resource.aggregates, field = name ++ "_count" := by
  rw [allowedFields, List.mem_append, List.mem_map]
  simp only [AggregateRequest.alias, eq_comm]

/-! ## Entries -/

/-- The entries of the body's `includes`. -/
def Request.includeEntries (request : Request) : List Value :=
  match request.body.get "includes" with
  | .list entries => entries
  | _ => []

namespace RelationRequest

variable {registry : Registry} {settings : Settings} {owner target : Resource}

/-- The path that an entry names. -/
def entryPath? : Value → Option String
  | .object members =>
      match Record.get members "relation" with
      | .text path => some path
      | _ => none
  | _ => none

/-- The conditions of a request are those that an entry states, read against a resource. -/
structure StatedBy (settings : Settings) (target : Resource) (members : Record)
    (asked : RelationRequest) : Prop where
  filters : Filter.Node.ofRequest settings target (members.get "filters") = .ok asked.filters
  sort : SortDirective.ofValue target (members.get "sort") = .ok asked.sort
  window : RelationWindow.ofEntry asked.path members = .ok asked.window

/-- A request that leads from a resource to another one along a path that may be loaded, with
conditions that may be stated there. -/
structure Accepted (registry : Registry) (settings : Settings) (owner target : Resource)
    (asked : RelationRequest) : Prop where
  shallow : asked.path.toList.count '.' ≤ settings.maxNestedDepth
  leads : registry.LeadsTo owner (pathSegments asked.path) target
  covered : "*" ∈ owner.includes ∨
    ∃ pattern ∈ owner.includes, Resource.Covers pattern asked.path
  filters : ∀ node ∈ asked.filters,
    node.fields ⊆ target.filterable ∧ node.depth ≤ settings.maxNestedDepth + 1
  sort : ∀ directive ∈ asked.sort, directive.field ∈ target.sortable ∨
    ∃ name ∈ target.aggregates, directive.field = name ++ "_count"
  window : ∀ window ∈ asked.window, 1 ≤ window.limit ∧ 1 ≤ window.page

/-- A request without conditions is accepted when its path is. -/
theorem accepted_plain {path : String}
    (found : owner.includeTarget registry settings path = .ok target) :
    Accepted registry settings owner target { path := path } := by
  unfold Resource.includeTarget at found
  dsimp only at found
  split at found
  · cases found
  · rename_i shallow
    split at found
    · cases found
    · rename_i allowed
      split at found
      · cases found
      · rename_i hops followed
        split at found
        · rename_i hop last
          cases found
          have leads := Registry.leadsTo_of_follow followed
          rw [last] at leads
          rw [length_pathSegments, Nat.add_sub_cancel, Nat.not_lt] at shallow
          rw [Bool.not_eq_true, Bool.not_eq_false', Resource.allowsPath_iff] at allowed
          exact ⟨shallow, leads, allowed, nofun, nofun, nofun⟩
        · cases found

theorem ofPath_eq_ok {path : String} {asked : RelationRequest}
    (done : ofPath registry settings owner path = .ok asked) :
    asked = { path := path } ∧ ∃ target, Accepted registry settings owner target asked := by
  obtain ⟨target, found, done⟩ := bind_eq_ok.mp done
  cases done
  exact ⟨rfl, target, accepted_plain found⟩

theorem ofEntry_eq_ok {entry : Value} {asked : RelationRequest}
    (done : ofEntry registry settings owner entry = .ok asked) :
    entryPath? entry = some asked.path ∧
      ∃ members target, entry = .object members ∧ StatedBy settings target members asked ∧
        Accepted registry settings owner target asked := by
  unfold ofEntry at done
  split at done
  · rename_i members
    split at done
    · rename_i path named
      obtain ⟨target, found, done⟩ := bind_eq_ok.mp done
      obtain ⟨window, windowed, done⟩ := bind_eq_ok.mp done
      obtain ⟨filters, filtered, done⟩ := bind_eq_ok.mp done
      obtain ⟨sort, sorted, done⟩ := bind_eq_ok.mp done
      cases done
      refine ⟨by rw [entryPath?, named], members, target, rfl, ⟨filtered, sorted, windowed⟩, ?_⟩
      refine { accepted_plain found with
        filters := fun node isNode => ⟨?_, ?_⟩
        sort := fun directive isSort => ?_
        window := RelationWindow.ofEntry_positive windowed }
      · exact Filter.Node.ofRequest_fields filtered node isNode
      · exact Filter.Node.ofRequest_depth filtered node isNode
      · exact SortDirective.mem_allowedFields.mp
          (SortDirective.ofValue_fields sorted directive isSort)
    · cases done
  · cases done

/-! ## Requests -/

variable {request : Request} {requests : List RelationRequest}

/-- What is accepted is merged of one request for each word and one for each entry. -/
theorem ofRequest_eq_ok (done : ofRequest registry settings owner request = .ok requests) :
    ∃ words plain detailed, Parameter.words "include" (request.input "include") = .ok words ∧
      List.Forall₂ (fun path asked => ofPath registry settings owner path = .ok asked) words plain ∧
      List.Forall₂ (fun entry asked => ofEntry registry settings owner entry = .ok asked)
        request.includeEntries detailed ∧
      requests = mergeRequests (plain ++ detailed) := by
  obtain ⟨words, isWords, done⟩ := bind_eq_ok.mp done
  obtain ⟨plain, plainRead, done⟩ := bind_eq_ok.mp done
  refine ⟨words, plain, ?_⟩
  unfold Request.includeEntries
  dsimp only at done
  split at done
  · rename_i absent
    obtain ⟨detailed, isDetailed, done⟩ := bind_eq_ok.mp done
    cases isDetailed
    cases done
    rw [absent]
    exact ⟨[], isWords, mapM_eq_ok.mp plainRead, .nil, rfl⟩
  · rename_i entries isList
    obtain ⟨detailed, detailedRead, done⟩ := bind_eq_ok.mp done
    cases done
    rw [isList]
    exact ⟨detailed, isWords, mapM_eq_ok.mp plainRead, mapM_eq_ok.mp detailedRead, rfl⟩
  · obtain ⟨detailed, refused, _⟩ := bind_eq_ok.mp done
    cases refused

theorem map_path_of_forall₂ {α : Type} {read : α → Except Error RelationRequest}
    (named : α → Option String)
    (names : ∀ item asked, read item = .ok asked → named item = some asked.path)
    {items : List α} {results : List RelationRequest}
    (each : List.Forall₂ (fun item asked => read item = .ok asked) items results) :
    items.filterMap named = results.map path := by
  induction each with
  | nil => rfl
  | cons first _ induction => rw [List.filterMap_cons_some (names _ _ first), induction, List.map_cons]

/-- The last entry of the body's `includes` that names a path. -/
def lastNaming? (request : Request) (path : String) : Option Value :=
  (request.includeEntries.filter fun entry => entryPath? entry == some path).getLast?

/-- Of an accepted request for relations, every path is kept once, and its conditions are those of
the last entry that names it, or none. -/
theorem ofRequest_sound (registry : Registry) (settings : Settings) (owner : Resource)
    (request : Request) :
    (∀ requests, ofRequest registry settings owner request = .ok requests →
      (requests.map path).Nodup ∧
      (∃ words, Parameter.words "include" (request.input "include") = .ok words ∧
        ∀ path, path ∈ requests.map RelationRequest.path ↔
          path ∈ words ∨ path ∈ request.includeEntries.filterMap entryPath?) ∧
      ∀ asked ∈ requests, ∃ target, Accepted registry settings owner target asked ∧
        match lastNaming? request asked.path with
        | some entry => ∃ members, entry = .object members ∧ StatedBy settings target members asked
        | none => asked = { path := asked.path }) ∧
    ∀ path below, owner.allowsPath (path ++ "." ++ below) = true → owner.allowsPath path = true := by
  refine ⟨fun requests done => ?_, fun path below => Resource.allowsPath_above⟩
  obtain ⟨words, plain, detailed, isWords, plainRead, detailedRead, rfl⟩ := ofRequest_eq_ok done
  refine ⟨nodup_mergeRequests _, ⟨words, isWords, fun path => ?_⟩, fun asked isAsked => ?_⟩
  · have plainPaths := map_path_of_forall₂ some
      (fun path asked read => by rw [(ofPath_eq_ok read).1]) plainRead
    have detailedPaths := map_path_of_forall₂ entryPath?
      (fun entry asked read => (ofEntry_eq_ok read).1) detailedRead
    rw [List.filterMap_some] at plainPaths
    rw [path_mem_mergeRequests, List.map_append, List.mem_append, ← plainPaths, ← detailedPaths]
  · have lasts : Option.Rel
        (fun entry asked => ofEntry registry settings owner entry = .ok asked)
        (lastNaming? request asked.path)
        (detailed.filter (·.path == asked.path)).getLast? := by
      refine getLast?_of_forall₂ (forall₂_filter detailedRead fun entry found read => ?_)
      rw [(ofEntry_eq_ok read).1, Option.some_beq_some]
    rw [mem_mergeRequests_iff, List.filter_append, List.getLast?_append] at isAsked
    generalize lastNaming? request asked.path = last at lasts ⊢
    generalize (detailed.filter (·.path == asked.path)).getLast? = found at lasts isAsked
    cases lasts with
    | some read =>
        rw [Option.some_or, Option.some_inj] at isAsked
        subst isAsked
        obtain ⟨_, members, target, isObject, stated, accepted⟩ := ofEntry_eq_ok read
        exact ⟨target, accepted, members, isObject, stated⟩
    | none =>
        rw [Option.none_or] at isAsked
        have isPlain := (List.mem_filter.mp (List.mem_of_getLast? isAsked)).1
        obtain ⟨word, _, read⟩ := exists_of_mem_right plainRead isPlain
        obtain ⟨plain, target, accepted⟩ := ofPath_eq_ok read
        refine ⟨target, accepted, ?_⟩
        rw [plain]

/-- A request for books that asks for labels plainly and by two entries. -/
def withLabels : Request where
  query := [("include", .text "labels")]
  body := [("includes", .list [
    .object [("relation", .text "labels"), ("limit", .int 1)],
    .object [("relation", .text "labels.book"), ("sort", .text "-rating"), ("limit", .int 2),
      ("page", .text "3")],
    .object [("relation", .text "labels"), ("filters", .list [
      .object [("field", .text "text"), ("value", .text "red")]])]])]

/-- Red labels, as the last entry asks for them. -/
def redLabels : RelationRequest where
  path := "labels"
  filters := some (.group .both [.leaf ⟨"text", .eq, .text "red", .both⟩])

/-- The third page of the books of each label. -/
def labelledBooks : RelationRequest where
  path := "labels.book"
  sort := [⟨"rating", .descending⟩]
  window := some ⟨2, 3⟩

theorem ofRequest_sound_books :
    ofRequest ⟨Samples.Library.resources⟩ {} Samples.Library.books withLabels =
        .ok [redLabels, labelledBooks] ∧
      ([redLabels, labelledBooks].map path).Nodup ∧
      ∃ target, Accepted ⟨Samples.Library.resources⟩ {} Samples.Library.books target
        labelledBooks := by
  have read : ofRequest ⟨Samples.Library.resources⟩ {} Samples.Library.books withLabels =
      .ok (mergeRequests
        [{ path := "labels" }, { path := "labels", window := some ⟨1, 1⟩ }, labelledBooks,
          redLabels]) := by
    with_unfolding_all rfl
  have merged : mergeRequests
      [{ path := "labels" }, { path := "labels", window := some ⟨1, 1⟩ }, labelledBooks,
        redLabels] = [redLabels, labelledBooks] :=
    List.mergeSort_of_pairwise (by decide)
  rw [merged] at read
  obtain ⟨unique, _, each⟩ := (ofRequest_sound _ _ _ _).1 _ read
  obtain ⟨target, accepted, _⟩ := each labelledBooks (List.mem_cons_of_mem _ List.mem_cons_self)
  exact ⟨read, unique, target, accepted⟩

end RelationRequest

end ResourceServer
