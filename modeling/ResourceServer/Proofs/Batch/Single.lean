import ResourceServer.Proofs.Batch.Silent
import ResourceServer.Proofs.Batch.Transaction
import ResourceServer.Proofs.Entries
import ResourceServer.Proofs.Filter.Grammar
import ResourceServer.Proofs.Visibility.Requests
import ResourceServer.Proofs.Visibility.Runs

/-!
# Batches of one

An operation that stores or updates one entity is a batch of one, but the bodies of the two differ:
one is the payload, the other holds it.  Parameters are looked for in the body as well as in the
query, so the two are the same exactly as long as no field of the payload is taken for a
parameter.
-/

namespace ResourceServer

/-! ## Parameters in bodies -/

namespace Request

/-- The names of the parameters that batches that store or update look for. -/
def parameterNames : List String :=
  ["filters", "search", "sort", "page", "limit", "fields", "with_count", "only_trashed",
    "with_trashed", "include", "includes"]

/-- The body of a request gives none of the parameters. -/
def BodyIsPlain (request : Request) : Prop :=
  ∀ name ∈ parameterNames, name ∉ request.body.names

/-- The request with another body. -/
def withBody (request : Request) (body : Record) : Request := { request with body }

/-- The request for a batch on some resources. -/
def forResources (request : Request) (resources : Value) : Request :=
  request.withBody [("resources", resources)]

theorem bodyIsPlain_forResources (request : Request) (resources : Value) :
    (request.forResources resources).BodyIsPlain := by
  intro name isParameter isMember
  obtain rfl : name = "resources" := List.mem_singleton.mp isMember
  exact absurd isParameter (by decide)

end Request

theorem Record.get?_eq_none {record : Record} {name : String} :
    record.get? name = none ↔ name ∉ record.names := by
  rw [get?, ← Option.not_isSome_iff_eq_none, Entries.lookup_isSome, names]
  simp

theorem Record.get?_merge {record changes : Record} {name : String}
    (unnamed : name ∉ changes.names) : (record.merge changes).get? name = record.get? name := by
  unfold merge
  induction changes generalizing record with
  | nil => rfl
  | cons change rest induction =>
      rw [names, List.map_cons, List.mem_cons, not_or] at unnamed
      rw [List.foldl_cons, induction unnamed.2]
      exact (Entries.lookup_set record change.1 name change.2).trans (if_neg unnamed.1)

section Reading

variable {registry : Registry} {settings : Settings} {resource : Resource}

/-- Reading the parameters of a query looks for these names only. -/
theorem QueryParameters.ofRequest_congr {first second : Record}
    (agree : ∀ name ∈ Request.parameterNames, first.get? name = second.get? name) :
    ofRequest settings resource first = ofRequest settings resource second := by
  simp only [Request.parameterNames, List.forall_mem_cons] at agree
  obtain ⟨filters, search, sort, page, limit, fields, counts, only, included, _⟩ := agree
  have value : ∀ {name}, first.get? name = second.get? name → first.get name = second.get name :=
    fun same => congrArg (Option.getD · Value.null) same
  simp only [ofRequest, SearchTerm.ofRequest, PaginationRequest.ofRequest, readColumns,
    readAggregates, TrashedScope.ofRequest, value filters, value search, value sort, page, limit,
    value fields, value counts, only, included]

variable {request : Request}

theorem QueryParameters.ofRequest_plain (plain : request.BodyIsPlain) :
    ofRequest settings resource request.parameters = ofRequest settings resource request.query :=
  ofRequest_congr fun name isParameter => Record.get?_merge (plain name isParameter)

theorem RelationRequest.ofRequest_plain (plain : request.BodyIsPlain) :
    ofRequest registry settings resource request =
      ofRequest registry settings resource (request.withBody []) := by
  have included : request.body.get? "include" = none :=
    Record.get?_eq_none.mpr (plain "include" (by decide))
  have detailed : request.body.get? "includes" = none :=
    Record.get?_eq_none.mpr (plain "includes" (by decide))
  have noEntries : request.body.get "includes" = .null := by
    unfold Record.get? at detailed
    rw [Record.get, detailed]
    rfl
  unfold ofRequest Request.input
  rw [included, noEntries]
  rfl

end Reading

/-! ## Runs on plain bodies -/

namespace Endpoint

section Generic

variable {σ : Type} [Store σ] {endpoint : Endpoint σ} {verb : BatchVerb} {request : Request}

omit [Store σ] in
/-- What is checked of a request with a plain body does not depend on that body. -/
theorem prepareBatch_plain (keeps : verb ≠ .destroy) (plain : request.BodyIsPlain)
    (input : BatchInput) :
    endpoint.prepareBatch verb request input =
      (endpoint.prepareBatch verb (request.withBody []) input).map fun prepared =>
        ({ prepared.1 with request }, prepared.2) := by
  have parameters : endpoint.readParameters request.parameters =
      endpoint.readParameters (request.withBody []).parameters :=
    QueryParameters.ofRequest_plain plain
  have requested : endpoint.readRelations request =
      endpoint.readRelations (request.withBody []) :=
    RelationRequest.ofRequest_plain plain
  have notForced : (verb == .destroy) = false := beq_eq_false_iff_ne.mpr keeps
  unfold prepareBatch
  simp only [parameters, requested, notForced]
  cases BatchPlan.ofInput endpoint.binding verb input with
  | error error => rfl
  | ok plan =>
      cases endpoint.readParameters (request.withBody []).parameters with
      | error error => rfl
      | ok parameters => cases endpoint.readRelations (request.withBody []) <;> rfl

/-- A batch without hooks runs the same whatever plain body its request has. -/
theorem runBatch_plain (silent : endpoint.binding.hooksFor verb = .silent)
    (keeps : verb ≠ .destroy) (plain : request.BodyIsPlain) (input : BatchInput) :
    endpoint.runBatch verb request input =
      endpoint.runBatch verb (request.withBody []) input := by
  unfold runBatch
  rw [prepareBatch_plain keeps plain, silent]
  cases prepared : endpoint.prepareBatch verb (request.withBody []) input with
  | error error => rfl
  | ok both =>
      obtain ⟨context, plan⟩ := both
      obtain ⟨_, parameters, requested, force, _, _, rfl⟩ := prepareBatch_eq_ok prepared
      exact endpoint.run_withRequest (rfl : request.user = (request.withBody []).user) plan

/-! ## Answers -/

/-- Two answers show the same entity, one alone and the other in a list. -/
def ShowAlike (one many : Answer) : Prop :=
  ∃ members, one = .envelope { data := .object members } ∧
    many = .envelope { data := .list [.object members] }

/-- Two runs leave the same store, and they fail alike or show the same entity, one alone and the
other in a list. -/
def RunAlike (one many : Except Error Answer × σ) : Prop :=
  one.2 = many.2 ∧ Corresponds ShowAlike one.1 many.1

omit [Store σ] in
/-- The answers to one batch of at most one, given as for a single entity and as for several. -/
theorem perform_answers {batch : Action σ BatchOutcome} (endpoint : Endpoint σ)
    (key : Value) (state : σ)
    (small : batch.Ensures (fun _ _ => True) fun outcome =>
      outcome.response = none ∧ outcome.entities.length ≤ 1) :
    RunAlike ((batch >>= endpoint.answerSingle key).perform state)
        ((batch >>= fun outcome => pure (answerMany outcome)).perform state) ∨
      ∃ outcome after, batch.perform state = (.ok outcome, after) ∧ outcome.entities = [] ∧
        (batch >>= endpoint.answerSingle key).perform state =
          (.error (.notFound endpoint.name key), after) ∧
        (batch >>= fun outcome => pure (answerMany outcome)).perform state =
          (.ok (.envelope { data := .list [] }), after) := by
  cases ran : batch.perform state with
  | mk result after =>
      cases result with
      | error error =>
          rw [Action.perform_bind_error ran, Action.perform_bind_error ran]
          exact .inl ⟨rfl, .error error⟩
      | ok outcome =>
          obtain ⟨_, noResponse, atMostOne⟩ := small.relatesOk ran
          obtain ⟨entities, response, requested⟩ := outcome
          cases noResponse
          rw [Action.perform_bind_ok ran, Action.perform_bind_ok ran]
          cases entities with
          | nil => exact .inr ⟨_, after, rfl, rfl, rfl, rfl⟩
          | cons entity rest =>
              obtain rfl : rest = [] := by simpa using atMostOne
              exact .inl ⟨rfl, .ok ⟨_, rfl, rfl⟩⟩

/-! ## Batches of one payload -/

omit [Store σ] in
theorem ofInput_store {payload : Value} {plan : BatchPlan}
    (checked : BatchPlan.ofInput endpoint.binding .store (.given (.list [payload])) = .ok plan) :
    ∃ payloads, plan = .payloads payloads ∧ payloads.length = 1 := by
  obtain ⟨payloads, read, checked⟩ := bind_eq_ok.mp checked
  cases checked
  exact ⟨payloads, rfl, (mapM_eq_ok.mp read).length_eq.symm⟩

omit [Store σ] in
theorem ofInput_update {key : Value} {payload : Record} {plan : BatchPlan}
    (checked : BatchPlan.ofInput endpoint.binding .update (.keyed key payload) = .ok plan) :
    ∃ found values, endpoint.resource.coerceKey key = .ok found ∧
      plan = .changes [(found, values)] := by
  obtain ⟨changes, read, checked⟩ := bind_eq_ok.mp checked
  cases checked
  rw [List.foldlM_cons, bind_eq_ok] at read
  obtain ⟨first, read, done⟩ := read
  cases done
  obtain ⟨found, coerced, read⟩ := bind_eq_ok.mp read
  obtain ⟨values, _, read⟩ := bind_eq_ok.mp read
  unfold BatchPlan.addChanges at read
  split at read
  · cases read
  · cases read
    exact ⟨found, values, coerced, rfl⟩

/-- A key that is spelled in two ways is one to a batch. -/
theorem runBatch_spelled {key : Value} {word : String} (payload : Record)
    (spelled : endpoint.resource.coerceKey key = endpoint.resource.coerceKey (.text word)) :
    endpoint.runBatch .update request (.keyed key payload) =
      endpoint.runBatch .update request (.given (.object [(word, .object payload)])) := by
  have same : BatchPlan.ofInput endpoint.binding .update (.keyed key payload) =
      BatchPlan.ofInput endpoint.binding .update (.given (.object [(word, .object payload)])) := by
    unfold resource at spelled
    simp only [BatchPlan.ofInput, BatchInput.entries?, List.map_cons, List.map_nil,
      List.foldlM_cons, spelled]
  unfold runBatch prepareBatch
  rw [same]

/-- A batch without hooks does as many entities as it has targets. -/
theorem serveAll_counts {context : BatchContext} {plan : BatchPlan} (counts : Nat → Prop)
    (aims : (endpoint.targets context plan).Ensures (fun _ _ => True) fun targets =>
      counts targets.length) (noneDone : context.entities = []) :
    (endpoint.serveAll context plan).Ensures (fun _ _ => True) fun outcome =>
      outcome.response = none ∧ counts outcome.entities.length := by
  refine (serveAll_ensures aims (fun target => .always _) noneDone).weaken ?_
  rintro outcome ⟨noResponse, _, targets, aimed, each⟩
  exact ⟨noResponse, each.length_eq ▸ aimed⟩

theorem fetchTargets_length (endpoint : Endpoint σ) (context : BatchContext) (keys : List Value) :
    (endpoint.fetchTargets context keys).Ensures (fun _ _ => True) fun entities =>
      entities.length ≤ keys.length := by
  unfold fetchTargets
  split
  · exact .pure (Nat.zero_le _)
  · refine .bind (.compute _) fun spec _ => ?_
    refine .bind (.always _) fun found _ => .pure ?_
    exact List.length_filterMap_le _ keys

/-- Storing one payload without hooks, when it succeeds, yields one entity. -/
theorem runBatch_storesOne (silent : endpoint.binding.hooksFor .store = .silent)
    (request : Request) (payload : Value) :
    (endpoint.runBatch .store request (.given (.list [payload]))).Ensures (fun _ _ => True)
      fun outcome => outcome.response = none ∧ outcome.entities.length = 1 := by
  refine runBatch_ensures silent fun context plan prepared => ?_
  obtain ⟨checked, _, _, _, _, _, rfl⟩ := prepareBatch_eq_ok prepared
  obtain ⟨payloads, rfl, one⟩ := ofInput_store checked
  refine serveAll_counts (· = 1) (.pure ?_) rfl
  rw [List.length_map, one]

/-- Updating one key without hooks, when it succeeds, yields at most one entity. -/
theorem runBatch_updatesOne (silent : endpoint.binding.hooksFor .update = .silent)
    (request : Request) (key : Value) (payload : Record) :
    (endpoint.runBatch .update request (.keyed key payload)).Ensures (fun _ _ => True)
      fun outcome => outcome.response = none ∧ outcome.entities.length ≤ 1 := by
  refine runBatch_ensures silent fun context plan prepared => ?_
  obtain ⟨checked, _, _, _, _, _, rfl⟩ := prepareBatch_eq_ok prepared
  obtain ⟨found, values, _, rfl⟩ := ofInput_update checked
  refine serveAll_counts (· ≤ 1) ?_ rfl
  refine .bind (endpoint.fetchTargets_length _ _) fun entities small => .pure ?_
  rw [List.length_map]
  exact small

/-- To store one entity is to store a batch of one. -/
theorem store_alike (silent : endpoint.binding.hooksFor .store = .silent)
    (plain : request.BodyIsPlain) (state : σ) :
    RunAlike ((endpoint.store request).perform state)
      ((endpoint.batchStore (request.forResources (.list [.object request.body]))).perform
        state) := by
  unfold store batchStore checkStore
  split
  · rw [pure_bind, pure_bind, runBatch_plain silent (by decide) plain,
      runBatch_plain silent (by decide) (request.bodyIsPlain_forResources _)]
    have stores := runBatch_storesOne silent (request.withBody []) (.object request.body)
    obtain alike | ⟨outcome, after, ran, none, _⟩ := perform_answers endpoint .null state
      (stores.weaken fun outcome one => ⟨one.1, one.2.le⟩)
    · exact alike
    · have one := (stores.relatesOk ran).2.2
      rw [none] at one
      cases one
  · exact ⟨rfl, .error _⟩

/-- To update one entity is to update a batch of one, unless its key is not found. -/
theorem update_alike (silent : endpoint.binding.hooksFor .update = .silent)
    (plain : request.BodyIsPlain) {key : Value} {word : String} (isKey : key.isKey = true)
    (spelled : endpoint.resource.coerceKey key = endpoint.resource.coerceKey (.text word))
    (state : σ) :
    RunAlike ((endpoint.update request key).perform state)
        ((endpoint.batch .update
          (request.forResources (.object [(word, .object request.body)]))).perform state) ∨
      ∃ outcome after,
        (endpoint.runBatch .update (request.withBody []) (.keyed key request.body)).perform state =
          (.ok outcome, after) ∧ outcome.entities = [] ∧
        (endpoint.update request key).perform state =
          (.error (.notFound endpoint.name key), after) ∧
        (endpoint.batch .update
          (request.forResources (.object [(word, .object request.body)]))).perform state =
          (.ok (.envelope { data := .list [] }), after) := by
  have alone : endpoint.update request key =
      endpoint.runBatch .update (request.withBody []) (.keyed key request.body) >>=
        endpoint.answerSingle key := by
    unfold update
    rw [isKey, runBatch_plain silent (by decide) plain]
    rfl
  have several : endpoint.batch .update
      (request.forResources (.object [(word, .object request.body)])) =
        endpoint.runBatch .update (request.withBody []) (.keyed key request.body) >>=
          fun outcome => pure (answerMany outcome) := by
    unfold batch
    rw [runBatch_plain silent (by decide) (request.bodyIsPlain_forResources _),
      runBatch_spelled request.body spelled]
    rfl
  rw [alone, several]
  exact perform_answers endpoint key state
    (runBatch_updatesOne silent (request.withBody []) key request.body)

end Generic

/-! ## Keys that are not found -/

section InMemory

variable {τ : Type} {endpoint : Endpoint (Memory × τ)}

/-- A row has a key, and the endpoint reaches it: it lies in the scope of trashed rows, and every
scope of the endpoint holds on it. -/
def Finds (endpoint : Endpoint (Memory × τ)) (trashed : TrashedScope) (contents : Contents)
    (key : Value) : Prop :=
  ∃ row ∈ (contents.table endpoint.resource.name).rows,
    Contents.inScope { resource := endpoint.resource, trashed } row = true ∧
      InScope endpoint.scopes row ∧ (row.get endpoint.resource.keyName).coincides key = true

end InMemory

end Endpoint

theorem Contents.selectRows_ne_nil {registry : Registry} {contents : Contents} {spec : QuerySpec}
    {rows selected : List Record} {row : Record}
    (done : selectRows registry contents spec rows = .ok selected) (isRow : row ∈ rows)
    (matching : rowMatches spec row = .ok true) : selected ≠ [] := by
  induction rows generalizing selected with
  | nil => cases isRow
  | cons first rest induction =>
      obtain ⟨holds, isMatch, done⟩ := bind_eq_ok.mp done
      cases holds with
      | true =>
          obtain ⟨counted, _, done⟩ := bind_eq_ok.mp done
          obtain ⟨others, _, done⟩ := bind_eq_ok.mp done
          cases done
          exact List.cons_ne_nil counted others
      | false =>
          cases List.mem_cons.mp isRow with
          | inl same =>
              rw [same, isMatch] at matching
              cases matching
          | inr later => exact induction done later

/-- Where a row matches, something is fetched. -/
theorem Contents.fetchRows_ne_nil {registry : Registry} {contents : Contents} {spec : QuerySpec}
    {rows : List Record} {row : Record}
    (fetched : contents.fetchRows registry spec none none = .ok rows)
    (isRow : row ∈ (contents.table spec.resource.name).rows)
    (matching : rowMatches spec row = .ok true) : rows ≠ [] := by
  obtain ⟨selected, byKey, sorted, selection, _, keyed, sorting, rfl⟩ := fetchRows_eq_ok.mp fetched
  have permutation := (Record.sortByAll_perm sorting).trans (Record.sortBy_perm keyed)
  rw [window_none, Ne, List.map_eq_nil_iff]
  rintro rfl
  exact selectRows_ne_nil selection isRow matching permutation.symm.eq_nil

/-- The query for some keys within scopes, with no other parameters. -/
theorem QuerySpec.ofKeys_eq_ok {resource : Resource} {trashed : TrashedScope}
    {requests : List RelationRequest} {scopes : List Filter.Node} {keys : List Value}
    {spec : QuerySpec} (done : ofKeys resource { trashed } requests scopes keys = .ok spec) :
    (∀ key ∈ keys, Filter.isScalar key = true) ∧ spec.resource = resource ∧
      spec.trashed = trashed ∧ spec.searchTerm = none ∧ spec.aggregates = [] ∧
      spec.wheres = scopes ++ [.leaf ⟨resource.keyName, .isIn, .list keys, .both⟩] := by
  obtain ⟨wide, isWide, narrowed⟩ := bind_eq_ok.mp done
  obtain ⟨columns, rfl⟩ := QuerySpec.ofParameters_eq_ok isWide
  obtain ⟨leaf, made, narrowed⟩ := bind_eq_ok.mp narrowed
  cases narrowed
  obtain ⟨⟨items, isItems, scalars⟩, rfl⟩ := Filter.Leaf.make_eq_ok.mp made
  cases isItems
  refine ⟨scalars, rfl, rfl, rfl, QueryParameters.effectiveAggregates_eq_nil rfl rfl, ?_⟩
  simp [whereNode]

/-- What a query for some keys loads has one of them, unless counts are taken. -/
theorem Store.key_isIn_of_loads {registry : Registry} {contents : Contents} {spec : QuerySpec}
    {keys : List Value} {rows : List Record} {entities : List Entity} {offset limit : Option Int}
    (given : .null ∉ keys) (noCounts : spec.aggregates = [])
    (asked : .leaf ⟨spec.resource.keyName, .isIn, .list keys, .both⟩ ∈ spec.wheres)
    (fetched : contents.fetchRows registry spec offset limit = .ok rows)
    (loads : Loads spec.resource rows entities) :
    ∀ entity ∈ entities, entity.key.isIn keys = true := by
  intro entity isEntity
  obtain ⟨source, _, selected, counted, counts, _, isKey⟩ := loads.source fetched entity isEntity
  rw [Contents.withCounts, noCounts] at counts
  cases counts
  have holds := Filter.evaluateAll_eq_true.mp (Contents.evaluateAll_of_rowMatches selected)
    _ asked
  rw [Filter.Node.evaluate, Filter.Leaf.evaluate_isIn given, ← isKey] at holds
  exact Except.ok.inj holds

namespace Endpoint

variable {τ : Type} {endpoint : Endpoint (Memory × τ)}

/-- A key for which no target is fetched is not found. -/
theorem fetchTargets_nil {context : BatchContext} {key : Value} {memory : Memory} {side : τ}
    {after : Memory × τ} (isResource : context.resource = endpoint.resource)
    (isScopes : context.scopes = endpoint.scopes)
    (done : (endpoint.fetchTargets context [key]).perform (memory, side) = (.ok [], after)) :
    ¬ endpoint.Finds context.targetScope memory.contents key := by
  rintro ⟨row, inTable, trashed, inScope, isKey⟩
  obtain ⟨spec, parsed, done⟩ := Action.perform_compute_eq_ok.mp done
  rw [isResource, isScopes] at parsed
  obtain ⟨scalar, specResource, specTrashed, noSearch, noCounts, wheres⟩ :=
    QuerySpec.ofKeys_eq_ok parsed
  rw [← specResource] at inTable wheres
  have given : Value.null ∉ [key] := by
    intro isNull
    cases scalar _ isNull
  obtain ⟨found, middle, loaded, done⟩ := Action.perform_bind_eq_ok.mp done
  obtain ⟨_, rows, fetched, loads⟩ := Store.get_eq_ok loaded
  have matching : Contents.rowMatches spec row = .ok true := by
    have reached : Contents.inScope spec row = true := by
      unfold Contents.inScope at trashed ⊢
      rw [specResource, specTrashed]
      exact trashed
    have holds : Filter.evaluateAll row spec.wheres = .ok true := by
      rw [Filter.evaluateAll_eq_true, wheres, List.forall_mem_append]
      refine ⟨inScope, fun node isNode => ?_⟩
      rw [List.mem_singleton.mp isNode, Filter.Node.evaluate, Filter.Leaf.evaluate_isIn given,
        specResource, Value.isIn, List.any_cons, List.any_nil, Bool.or_false, isKey]
    rw [Contents.rowMatches, if_pos reached, holds, noSearch]
    rfl
  have keys := Store.key_isIn_of_loads given noCounts (by simp [wheres]) fetched loads
  cases found with
  | nil =>
      exact Contents.fetchRows_ne_nil fetched inTable matching
        (List.map_eq_nil_iff.mp loads.2.symm)
  | cons entity rest =>
      have hasKey := keys entity List.mem_cons_self
      rw [Value.isIn, List.any_cons, List.any_nil, Bool.or_false] at hasKey
      have none := Except.ok.inj (congrArg Prod.fst done)
      simp [hasKey] at none

/-- When an update without hooks is done for no entity, its key is not found. -/
theorem runBatch_updatesNone (silent : endpoint.binding.hooksFor .update = .silent)
    {request : Request} {key : Value} {payload : Record} {memory : Memory} {side : τ}
    {outcome : BatchOutcome} {after : Memory × τ}
    (ran : (endpoint.runBatch .update request (.keyed key payload)).perform (memory, side) =
      (.ok outcome, after)) (none : outcome.entities = []) :
    ∃ parameters found, endpoint.readParameters request.parameters = .ok parameters ∧
      endpoint.resource.coerceKey key = .ok found ∧
        ¬ endpoint.Finds parameters.trashed memory.contents found := by
  obtain ⟨⟨context, plan⟩, prepared, ran⟩ := Action.perform_compute_eq_ok.mp ran
  obtain ⟨checked, parameters, requested, force, read, _, rfl⟩ := prepareBatch_eq_ok prepared
  obtain ⟨found, values, coerced, rfl⟩ := ofInput_update checked
  refine ⟨parameters, found, read, coerced, ?_⟩
  dsimp only at ran
  rw [silent] at ran
  obtain ⟨opened, inside, begun, ran⟩ := run_eq_ok ran
  rw [execute_silent] at ran
  have isOpened : opened = (memory.opened, side) := by
    cases isOpen : memory.snapshot with
    | some snapshot =>
        rw [Memory.perform_begin_again isOpen] at begun
        cases begun
    | none =>
        rw [Memory.perform_begin isOpen] at begun
        exact (congrArg Prod.snd begun).symm
  subst isOpened
  obtain ⟨targets, middle, aimed, ran⟩ := Action.perform_bind_eq_ok.mp ran
  obtain ⟨entities, last, served, ran⟩ := Action.perform_bind_eq_ok.mp ran
  cases ran
  obtain rfl : entities = [] := none
  have noTargets : targets = [] :=
    List.length_eq_zero_iff.mp (Action.length_of_mapM served)
  subst noTargets
  obtain ⟨fetched, middle, aimed, done⟩ := Action.perform_bind_eq_ok.mp aimed
  obtain rfl : fetched = [] := by
    have mapped := Except.ok.inj (congrArg Prod.fst done)
    exact List.map_eq_nil_iff.mp mapped
  exact fetchTargets_nil rfl rfl aimed

/-- Where no batch calls hooks and the payload has no field that is taken for a parameter, to store
one entity is to store a batch of one.  So it is with updates, however the key is spelled, unless
the key is not found. -/
theorem single_batchOfOne (endpoint : Endpoint (Memory × τ))
    (silent : ∀ verb, endpoint.binding.hooksFor verb = .silent) {request : Request}
    (plain : request.BodyIsPlain) (memory : Memory) (side : τ) :
    RunAlike ((endpoint.store request).perform (memory, side))
        ((endpoint.batchStore (request.forResources (.list [.object request.body]))).perform
          (memory, side)) ∧
      ∀ key word, key.isKey = true →
        endpoint.resource.coerceKey key = endpoint.resource.coerceKey (.text word) →
        RunAlike ((endpoint.update request key).perform (memory, side))
            ((endpoint.batch .update
              (request.forResources (.object [(word, .object request.body)]))).perform
              (memory, side)) ∨
          (∃ after,
            (endpoint.update request key).perform (memory, side) =
              (.error (.notFound endpoint.name key), after) ∧
            (endpoint.batch .update
              (request.forResources (.object [(word, .object request.body)]))).perform
              (memory, side) = (.ok (.envelope { data := .list [] }), after)) ∧
            ∃ parameters found, endpoint.readParameters request.query = .ok parameters ∧
              endpoint.resource.coerceKey key = .ok found ∧
                ¬ endpoint.Finds parameters.trashed memory.contents found := by
  refine ⟨store_alike (silent .store) plain (memory, side), fun key word isKey spelled => ?_⟩
  obtain alike | ⟨outcome, after, ran, none, alone, several⟩ :=
    update_alike (silent .update) plain isKey spelled (memory, side)
  · exact .inl alike
  · exact .inr ⟨⟨after, alone, several⟩, runBatch_updatesNone (silent .update) ran none⟩

/-- The endpoint of the nodes of a library. -/
def nodeEndpoint : Endpoint (Memory × Unit) where
  registry := ⟨Samples.Library.resources⟩
  now := Samples.Library.trashedAt
  binding := { resource := Samples.Library.nodes }

/-- A request with the payload of a node. -/
def rankedNode : Request where
  body := [("name", .text "root"), ("rank", .int 3)]

theorem single_batchOfOne_nodes :
    rankedNode.BodyIsPlain ∧
      ((nodeEndpoint.store rankedNode).perform ({}, ())).1 = .ok (.envelope { data := .object [
        ("id", .int 1), ("name", .text "root"), ("parent_id", .null), ("rank", .int 3)] }) ∧
      RunAlike ((nodeEndpoint.store rankedNode).perform ({}, ()))
        ((nodeEndpoint.batchStore
          (rankedNode.forResources (.list [.object rankedNode.body]))).perform ({}, ())) ∧
      RunAlike ((nodeEndpoint.update rankedNode (.int 2)).perform (filedNodes, ()))
        ((nodeEndpoint.batch .update
          (rankedNode.forResources (.object [("2", .object rankedNode.body)]))).perform
          (filedNodes, ())) := by
  have plain : rankedNode.BodyIsPlain := by
    unfold Request.BodyIsPlain
    decide
  have silent : ∀ verb, nodeEndpoint.binding.hooksFor verb = .silent := fun _ => rfl
  refine ⟨plain, by with_unfolding_all rfl, (single_batchOfOne nodeEndpoint silent plain {} ()).1, ?_⟩
  obtain alike | ⟨⟨after, alone, _⟩, _⟩ :=
    (single_batchOfOne nodeEndpoint silent plain filedNodes ()).2 (.int 2) "2" rfl
      (by with_unfolding_all rfl)
  · exact alike
  · have updated : ((nodeEndpoint.update rankedNode (.int 2)).perform (filedNodes, ())).1.isOk =
        true := by
      decide +kernel
    rw [alone] at updated
    cases updated

/-- A request with the payload of a node in which a field is named like a parameter. -/
def pagedNode : Request where
  body := [("name", .text "root"), ("page", .int 0)]

/-- A field that is taken for a parameter is refused when it comes alone, and ignored in a batch. -/
theorem paged_node_refused :
    ((nodeEndpoint.store pagedNode).perform ({}, ())).1 =
        .error (.malformed (.belowMinimum "page" 1 0)) ∧
      ((nodeEndpoint.batchStore
        (pagedNode.forResources (.list [.object pagedNode.body]))).perform ({}, ())).1 =
        .ok (.envelope { data := .list [.object [("id", .int 1), ("name", .text "root"),
          ("parent_id", .null), ("rank", .null)]] }) := by
  constructor
  · rfl
  · with_unfolding_all rfl

end Endpoint

end ResourceServer
