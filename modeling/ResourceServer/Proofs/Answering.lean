import ResourceServer.Proofs.AllOrNothing
import ResourceServer.Proofs.Trashing

/-!
# Answers that can be read again

An operation that stores, updates, trashes or restores one entity answers with what it has read back
under the key of the row, inside its transaction.  Afterwards the view of an equal key is the same
query on the same contents, so it gives the same answer.
-/

namespace ResourceServer

/-! ## Queries for equal keys -/

namespace QuerySpec

/-- The query narrowed to the rows with a key. -/
def forKey (spec : QuerySpec) (key : Value) : QuerySpec :=
  spec.whereNode (.leaf (Store.leafIn spec.resource.keyName [key]))

end QuerySpec

section EqualKeys

variable {spec : QuerySpec} {found key : Value}

theorem Contents.rowMatches_forKey (scalar : Filter.isScalar key = true)
    (same : found.coincides key = true) (row : Record) :
    rowMatches (spec.forKey found) row = rowMatches (spec.forKey key) row := by
  have isKey := Value.isKey_of_isScalar scalar
  have given := Store.null_not_mem_of_scalars (List.forall_mem_singleton.mpr scalar)
  have foundGiven := Store.null_not_mem_of_scalars
    (List.forall_mem_singleton.mpr (Value.isScalar_of_coincides scalar same))
  have evaluates : (Filter.Node.leaf (Store.leafIn spec.resource.keyName [found])).evaluate row =
      (Filter.Node.leaf (Store.leafIn spec.resource.keyName [key])).evaluate row := by
    rw [Filter.Node.evaluate, Filter.Node.evaluate, Store.evaluate_leafIn foundGiven,
      Store.evaluate_leafIn given]
    simp only [Value.isIn, List.any_cons,
      Value.coincides_congr (Value.isKey_of_coincides isKey same) isKey same]
  have sameFilters : Filter.evaluateAll row (spec.forKey found).wheres =
      Filter.evaluateAll row (spec.forKey key).wheres := by
    change Filter.evaluateAll row (spec.wheres ++ [_]) = Filter.evaluateAll row (spec.wheres ++ [_])
    induction spec.wheres with
    | nil =>
        simp only [List.nil_append, Filter.evaluateAll, evaluates]
    | cons first rest induction =>
        rw [List.cons_append, List.cons_append, Filter.evaluateAll, Filter.evaluateAll, induction]
  unfold rowMatches
  rw [sameFilters]
  rfl

theorem Contents.selectRows_forKey (registry : Registry) (contents : Contents)
    (scalar : Filter.isScalar key = true) (same : found.coincides key = true)
    (rows : List Record) :
    selectRows registry contents (spec.forKey found) rows =
      selectRows registry contents (spec.forKey key) rows := by
  induction rows with
  | nil => rfl
  | cons row rest induction =>
      rw [selectRows, selectRows, rowMatches_forKey scalar same, induction]
      rfl

/-- What is found first under a key is found first under an equal one. -/
theorem Store.first_forKey {τ : Type} {registry : Registry} {memory : Memory} {side : τ}
    {entity? : Option Entity} (scalar : Filter.isScalar key = true)
    (same : found.coincides key = true)
    (loaded : (first registry (spec.forKey key)).Yields (memory, side) entity?) :
    (first registry (spec.forKey found)).Yields (memory, side) entity? := by
  obtain ⟨rows, middle, fetched, loaded⟩ := Action.perform_bind_eq_ok.mp loaded
  have sameRows : memory.contents.fetchRows registry (spec.forKey found) none (some 1) =
      memory.contents.fetchRows registry (spec.forKey key) none (some 1) := by
    unfold Contents.fetchRows
    rw [Contents.selectRows_forKey registry memory.contents scalar same]
    rfl
  refine Action.perform_bind_eq_ok.mpr ⟨rows, middle, ?_, ?_⟩
  · rw [Memory.perform_fetchRows] at fetched ⊢
    rw [sameRows]
    exact fetched
  · have sameLoading : (hydrate registry (spec.forKey found) rows : Action (Memory × τ) _) =
        hydrate registry (spec.forKey key) rows := by
      apply hydrate_congr
      · rfl
      · rfl
    rw [sameLoading]
    exact loaded

end EqualKeys

/-! ## Requests -/

namespace Request

/-- The parameters that say which fields, relations and counts are wanted. -/
def selectors : List String := ["fields", "include", "with_count"]

/-- The query says nothing else but which fields, relations and counts are wanted. -/
def IsSelective (request : Request) : Prop := ∀ name ∈ request.query.names, name ∈ selectors

instance (request : Request) : Decidable request.IsSelective :=
  inferInstanceAs (Decidable (∀ name ∈ request.query.names, name ∈ selectors))

/-- A request to show what another one has left: for the same fields, relations and counts, and for
trashed rows where something was destroyed. -/
inductive ShownBy (request : Request) : BatchVerb → Request → Prop
  | live {verb : BatchVerb} {shown : Request} (kept : verb ≠ .destroy)
      (plain : shown.BodyIsPlain) (query : shown.query = request.query) :
      ShownBy request verb shown
  | trashed {shown : Request} {flag : Value}
      (means : Parameter.flag "with_trashed" flag = .ok true)
      (plain : shown.BodyIsPlain) (query : shown.query = request.query.set "with_trashed" flag) :
      ShownBy request .destroy shown

section Shown

variable {request shown : Request} {verb : BatchVerb}

theorem ShownBy.plain (shows : request.ShownBy verb shown) : shown.BodyIsPlain := by
  cases shows with
  | live _ plain _ => exact plain
  | trashed _ plain _ => exact plain

theorem ShownBy.get?_eq (shows : request.ShownBy verb shown) {name : String}
    (isSelector : name ∈ selectors) : shown.query.get? name = request.query.get? name := by
  cases shows with
  | live _ _ query => rw [query]
  | trashed _ _ query =>
      rw [query, Record.get?_set, if_neg]
      rintro rfl
      exact absurd isSelector (by decide)

theorem IsSelective.get?_eq_none (selective : request.IsSelective) {name : String}
    (other : name ∉ selectors) : request.query.get? name = none :=
  Record.get?_eq_none.mpr fun isNamed => other (selective name isNamed)

end Shown

end Request

section Reading

variable {registry : Registry} {settings : Settings} {resource : Resource} {given other : Record}

theorem QueryParameters.ofRequest_reads {parameters : QueryParameters}
    (read : ofRequest settings resource given = .ok parameters) :
    readColumns resource given = .ok parameters.columns ∧
      readAggregates resource given = .ok parameters.aggregates ∧
        TrashedScope.ofRequest resource given = .ok parameters.trashed := by
  obtain ⟨filters, _, read⟩ := bind_eq_ok.mp read
  obtain ⟨searchTerm, _, read⟩ := bind_eq_ok.mp read
  obtain ⟨sorts, _, read⟩ := bind_eq_ok.mp read
  obtain ⟨pagination, _, read⟩ := bind_eq_ok.mp read
  obtain ⟨columns, isColumns, read⟩ := bind_eq_ok.mp read
  obtain ⟨aggregates, isAggregates, read⟩ := bind_eq_ok.mp read
  obtain ⟨trashed, isTrashed, read⟩ := bind_eq_ok.mp read
  cases read
  exact ⟨isColumns, isAggregates, isTrashed⟩

theorem Record.get_eq_of_get?_eq {name : String} (same : given.get? name = other.get? name) :
    given.get name = other.get name :=
  congrArg (Option.getD · Value.null) same

theorem readColumns_congr (same : given.get? "fields" = other.get? "fields") :
    readColumns resource given = readColumns resource other := by
  rw [readColumns, readColumns, Record.get_eq_of_get?_eq same]

theorem readAggregates_congr (same : given.get? "with_count" = other.get? "with_count") :
    readAggregates resource given = readAggregates resource other := by
  rw [readAggregates, readAggregates, Record.get_eq_of_get?_eq same]

theorem TrashedScope.ofRequest_live (notOnly : given.get? "only_trashed" = none)
    (notTrashed : given.get? "with_trashed" = none) : ofRequest resource given = .ok .without := by
  unfold ofRequest
  rw [notOnly, notTrashed]
  cases resource.softDeletes with
  | false => rfl
  | true => rfl

theorem TrashedScope.ofRequest_trashed {flag : Value} (softDeletes : resource.softDeletes = true)
    (notOnly : given.get? "only_trashed" = none) (isFlag : given.get? "with_trashed" = some flag)
    (means : Parameter.flag "with_trashed" flag = .ok true) :
    ofRequest resource given = .ok .included := by
  unfold ofRequest
  rw [notOnly, isFlag, softDeletes, Option.getD_some, means]
  rfl

theorem RelationRequest.ofRequest_alike {request shown : Request} (plain : request.BodyIsPlain)
    (shownPlain : shown.BodyIsPlain)
    (same : shown.query.get? "include" = request.query.get? "include") :
    ofRequest registry settings resource shown = ofRequest registry settings resource request := by
  rw [ofRequest_plain plain, ofRequest_plain shownPlain]
  unfold ofRequest Request.input Request.withBody
  rw [same]

end Reading

/-! ## Batches of one -/

/-- The batch of one that an operation on one entity runs. -/
inductive Operation.BatchesOne (request : Request) : Operation → BatchVerb → BatchInput → Prop
  | store : BatchesOne request .store .store (.given (.list [.object request.body]))
  | update (key : Value) : BatchesOne request (.update key) .update (.keyed key request.body)
  | destroy (key : Value) : BatchesOne request (.destroy key) .destroy (.given (.list [key]))
  | restore (key : Value) : BatchesOne request (.restore key) .restore (.given (.list [key]))

theorem Contents.insert_appends {resource : Resource} {contents after : Contents} {values : Record}
    {key : Value} (done : contents.insert resource values = .ok (key, after)) :
    ∃ row, after.table resource.name = contents.table resource.name ++ [(key, row)] := by
  obtain ⟨_, _, _, _, rfl⟩ := insert_eq_ok done
  rw [table_withKey, table_withTable]
  exact ⟨_, rfl⟩

theorem BatchTarget.key_filled (target : BatchTarget) (verb : BatchVerb) (entity : Entity) :
    (target.filled verb entity).key = entity.key := by
  cases entity
  cases verb with
  | update => rfl
  | _ => rfl

namespace Endpoint

variable {τ : Type} {endpoint : Endpoint (Memory × τ)} {request shown : Request}
variable {operation : Operation} {verb : BatchVerb} {input : BatchInput}
variable {context : BatchContext} {plan : BatchPlan} {memory : Memory} {side : τ}

theorem answerSingle_eq_ok {key : Value} {outcome : BatchOutcome} {answer : Answer}
    {before after : Memory × τ} (unanswered : outcome.response = none)
    (done : (endpoint.answerSingle key outcome).perform before = (.ok answer, after)) :
    after = before ∧ ∃ entity rest, outcome.entities = entity :: rest ∧
      answer = .envelope (.ofEntity outcome.requested entity) := by
  unfold answerSingle at done
  rw [unanswered] at done
  cases isFirst : outcome.entities with
  | nil =>
      rw [isFirst] at done
      cases done
  | cons entity rest =>
      rw [isFirst] at done
      cases done
      exact ⟨rfl, entity, rest, rfl, rfl⟩

/-- An operation on one entity answers with the first entity of its batch. -/
theorem answer_of_batchesOne {answer : Answer} {before after : Memory × τ}
    (batches : operation.BatchesOne request verb input)
    (silent : endpoint.binding.hooksFor verb = .silent)
    (grants : endpoint.binding.authorizer.GrantsAll)
    (done : (operation.perform endpoint request).perform before = (.ok answer, after)) :
    ∃ outcome entity rest,
      (endpoint.runBatch verb request input).perform before = (.ok outcome, after) ∧
      outcome.entities = entity :: rest ∧
      answer = .envelope (.ofEntity outcome.requested entity) := by
  have each : ∀ key, ((endpoint.runBatch verb request input >>=
      endpoint.answerSingle key).perform before = (.ok answer, after)) →
        ∃ outcome entity rest,
          (endpoint.runBatch verb request input).perform before = (.ok outcome, after) ∧
          outcome.entities = entity :: rest ∧
          answer = .envelope (.ofEntity outcome.requested entity) := by
    intro key done
    obtain ⟨outcome, middle, ran, answered⟩ := Action.perform_bind_eq_ok.mp done
    obtain ⟨memory, side⟩ := before
    obtain ⟨_, _, _, _, _, _, _, _, _, isOutcome, _⟩ := (runBatch_eq_ok silent grants).mp ran
    have unanswered : outcome.response = none := by rw [isOutcome]
    obtain ⟨rfl, entity, rest, isFirst, isAnswer⟩ := answerSingle_eq_ok unanswered answered
    exact ⟨outcome, entity, rest, ran, isFirst, isAnswer⟩
  cases batches with
  | store =>
      obtain ⟨_, middle, allowed, done⟩ := Action.perform_bind_eq_ok.mp done
      unfold checkStore at allowed
      split at allowed
      · cases allowed
        exact each .null done
      · cases allowed
  | update key =>
      change (endpoint.update request key).perform before = _ at done
      unfold update at done
      split at done
      · cases done
      · exact each key done
  | destroy key => exact each key done
  | restore key => exact each key done

/-- The row that an operation on a row that exists is about: its plan has one key, which is the one
that the operation names. -/
theorem rowKeys_of_batchesOne (batches : operation.BatchesOne request verb input)
    (existing : verb ≠ .store) (checked : BatchPlan.ofInput endpoint.binding verb input = .ok plan) :
    ∃ raw found, operation.row? = some (verb, raw) ∧
      endpoint.resource.coerceKey raw = .ok found ∧ plan.rowKeys = [found] := by
  have listed : ∀ {key : Value},
      BatchPlan.ofKeys endpoint.resource (.given (.list [key])) = .ok plan →
        ∃ found, endpoint.resource.coerceKey key = .ok found ∧ plan.rowKeys = [found] := by
    intro key checked
    obtain ⟨_, keys, isItems, converted, _, rfl⟩ := BatchPlan.ofKeys_eq_ok.mp checked
    cases isItems
    cases mapM_eq_ok.mp converted with
    | cons isKey none =>
        cases none
        exact ⟨_, isKey, rfl⟩
  cases batches with
  | store => exact absurd rfl existing
  | update key =>
      obtain ⟨found, values, isKey, rfl⟩ := ofInput_update checked
      exact ⟨key, found, rfl, isKey, rfl⟩
  | destroy key =>
      obtain ⟨found, isKey, single⟩ := listed checked
      exact ⟨key, found, rfl, isKey, single⟩
  | restore key =>
      obtain ⟨found, isKey, single⟩ := listed (BatchPlan.ofInput_restore_eq_ok.mp checked).2
      exact ⟨key, found, rfl, isKey, single⟩

theorem fetchTargets_ofKey {found : Value} {entities : List Entity} {before after : Memory × τ}
    (done : (endpoint.fetchTargets context [found]).perform before = (.ok entities, after)) :
    ∀ entity ∈ entities, entities = [entity] ∧ entity.key.coincides found = true := by
  obtain ⟨spec, _, done⟩ := Action.perform_compute_eq_ok.mp done
  obtain ⟨loaded, middle, _, done⟩ := Action.perform_bind_eq_ok.mp done
  cases done
  intro entity isEntity
  obtain ⟨key, isKey, isLast⟩ := List.mem_filterMap.mp isEntity
  obtain rfl := List.mem_singleton.mp isKey
  refine ⟨?_, (List.mem_filter.mp (List.mem_of_getLast? isLast)).2⟩
  rw [List.filterMap_cons, isLast]
  rfl

/-- A plan with one key has one target at most, which has that key. -/
theorem targets_ofKey (existing : verb ≠ .store)
    (checked : BatchPlan.ofInput endpoint.binding verb input = .ok plan) {found : Value}
    (single : plan.rowKeys = [found]) {targets : List BatchTarget} {before after : Memory × τ}
    (done : (endpoint.targets context plan).perform before = (.ok targets, after)) :
    ∀ target ∈ targets, targets = [target] ∧ target.entity.key.coincides found = true := by
  rw [targets_eq endpoint context (not_payloads existing checked), single] at done
  obtain ⟨entities, middle, fetched, done⟩ := Action.perform_bind_eq_ok.mp done
  cases done
  refine List.forall_mem_map.mpr fun entity isFound => ?_
  obtain ⟨isOnly, meant⟩ := fetchTargets_ofKey fetched entity isFound
  rw [isOnly, BatchPlan.entity_aim]
  exact ⟨rfl, meant⟩

/-- A write to a row that exists yields its key. -/
theorem mutate_existing (endpoint : Endpoint (Memory × τ)) (target : BatchTarget)
    (entity : Entity) (existing : context.verb ≠ .store) :
    ∃ write : Action (Memory × τ) Int,
      endpoint.mutate context target entity = write >>= fun _ => pure entity.key := by
  unfold mutate
  cases isVerb : context.verb with
  | store => exact absurd isVerb existing
  | update => exact ⟨_, rfl⟩
  | destroy =>
      cases context.trashes with
      | true => exact ⟨_, rfl⟩
      | false => exact ⟨_, rfl⟩
  | restore => exact ⟨_, rfl⟩

/-- The key of the row that an operation has written: the row that it has added, or the one that it
has named. -/
structure Writes (endpoint : Endpoint (Memory × τ)) (operation : Operation)
    (before after : Contents) (key : Value) : Prop where
  added : operation = .store → ∃ row, after.table endpoint.resource.name =
    before.table endpoint.resource.name ++ [(key, row)]
  named : ∀ verb raw, operation.row? = some (verb, raw) → ∃ found,
    endpoint.resource.coerceKey raw = .ok found ∧ key.coincides found = true

/-- A batch of one has one target at most, which has the key that the operation names, if it names
one. -/
theorem target_of_batchesOne (batches : operation.BatchesOne request verb input)
    (checked : BatchPlan.ofInput endpoint.binding verb input = .ok plan)
    {targets : List BatchTarget} {before after : Memory × τ}
    (aimed : (endpoint.targets context plan).perform before = (.ok targets, after))
    (someTarget : targets ≠ []) :
    ∃ target, targets = [target] ∧
      ∀ other raw, operation.row? = some (other, raw) → verb ≠ .store ∧ ∃ found,
        endpoint.resource.coerceKey raw = .ok found ∧
          target.entity.key.coincides found = true := by
  by_cases existing : verb = .store
  · subst existing
    cases batches with
    | store =>
        obtain ⟨payloads, rfl, one⟩ := ofInput_store checked
        obtain ⟨payload, rfl⟩ := List.length_eq_one_iff.mp one
        cases aimed
        exact ⟨_, rfl, nofun⟩
  · obtain ⟨raw, found, isRow, isKey, single⟩ := rowKeys_of_batchesOne batches existing checked
    obtain ⟨target, others, rfl⟩ := List.exists_cons_of_ne_nil someTarget
    obtain ⟨isOnly, meant⟩ := targets_ofKey existing checked single aimed target
      List.mem_cons_self
    refine ⟨target, isOnly, fun other named isOther => ?_⟩
    rw [isRow] at isOther
    cases isOther
    exact ⟨existing, found, isKey, meant⟩

/-- What the target of a batch of one writes is the row that the operation adds or names. -/
theorem writes_of_mutate (batches : operation.BatchesOne request verb input)
    (isVerb : context.verb = verb) (isResource : context.resource = endpoint.resource)
    {target : BatchTarget} {key : Value} {contents : Contents}
    (named : ∀ other raw, operation.row? = some (other, raw) → verb ≠ .store ∧ ∃ found,
      endpoint.resource.coerceKey raw = .ok found ∧ target.entity.key.coincides found = true)
    (mutated : (endpoint.mutate context target
      (target.filled context.verb target.entity)).perform (memory, side) =
        (.ok key, ({ memory with contents }, side))) :
    endpoint.Writes operation memory.contents contents key := by
  constructor
  · rintro rfl
    cases batches with
    | store =>
        rw [mutate, isVerb, isResource] at mutated
        obtain ⟨_, inserted, same⟩ := Memory.perform_insert_eq_ok mutated
        cases same
        exact Contents.insert_appends inserted
  · intro other raw isRow
    obtain ⟨existing, found, isKey, meant⟩ := named other raw isRow
    refine ⟨found, isKey, ?_⟩
    rw [← isVerb] at existing
    obtain ⟨write, isWrite⟩ := endpoint.mutate_existing target
      (target.filled context.verb target.entity) existing
    rw [isWrite] at mutated
    obtain ⟨_, _, _, isTarget⟩ := Action.perform_bind_eq_ok.mp mutated
    cases isTarget
    rwa [BatchTarget.key_filled]

/-- A batch of one has written one row and read it back, unless it removes rows. -/
theorem readBack_of_batchesOne {outcome : BatchOutcome} {entity : Entity} {rest : List Entity}
    {after : Memory × τ} (batches : operation.BatchesOne request verb input)
    (silent : endpoint.binding.hooksFor verb = .silent)
    (grants : endpoint.binding.authorizer.GrantsAll)
    (keeps : ∀ context plan, endpoint.prepareBatch verb request input = .ok (context, plan) →
      context.readsBack = true)
    (done : (endpoint.runBatch verb request input).perform (memory, side) = (.ok outcome, after))
    (isFirst : outcome.entities = entity :: rest) :
    ∃ context plan key contents, endpoint.prepareBatch verb request input = .ok (context, plan) ∧
      outcome.requested = context.requested ∧ after = ({ memory with contents }, side) ∧
      endpoint.Writes operation memory.contents contents key ∧
      (endpoint.refetch context key).perform ({ memory.opened with contents }, side) =
        (.ok entity, ({ memory.opened with contents }, side)) := by
  obtain ⟨context, plan, targets, entities, contents, prepared, _, aimed, served, rfl, rfl⟩ :=
    (runBatch_eq_ok silent grants).mp done
  obtain ⟨checked, _, _, _, _, _, isContext⟩ := prepareBatch_eq_ok prepared
  have isVerb : context.verb = verb := by rw [isContext]
  have isResource : context.resource = endpoint.resource := by rw [isContext]
  change entities = entity :: rest at isFirst
  subst isFirst
  have someTarget : targets ≠ [] := by
    rintro rfl
    cases served
  obtain ⟨target, rfl, named⟩ := target_of_batchesOne batches checked aimed someTarget
  obtain ⟨first, middle, served, ended⟩ := Action.perform_bind_eq_ok.mp served
  cases ended
  rw [perform_serveTarget grants] at served
  obtain ⟨key, middle, mutated, readBack⟩ := Action.perform_bind_eq_ok.mp served
  rw [BatchSteps.refresh, keeps context plan prepared, if_pos rfl] at readBack
  obtain ⟨inside, sideInside⟩ := middle
  obtain ⟨same, _⟩ := first_of_refetch readBack
  cases same
  have writes : endpoint.Writes operation memory.opened.contents contents key :=
    writes_of_mutate batches isVerb isResource named mutated
  exact ⟨context, plan, key, contents, prepared, rfl, rfl, writes, readBack⟩

/-! ## What is shown -/

/-- A request that does not force anything has rows read back, unless they cannot be trashed. -/
theorem prepareBatch_readsBack (selective : request.IsSelective)
    (unforced : verb = .destroy → "force" ∉ request.body.names)
    (kept : verb = .destroy → endpoint.resource.softDeletes = true)
    (prepared : endpoint.prepareBatch verb request input = .ok (context, plan)) :
    context.readsBack = true := by
  obtain ⟨_, _, prepared⟩ := bind_eq_ok.mp prepared
  obtain ⟨_, _, prepared⟩ := bind_eq_ok.mp prepared
  obtain ⟨_, _, prepared⟩ := bind_eq_ok.mp prepared
  cases verb with
  | destroy =>
      obtain ⟨force, flagged, prepared⟩ := bind_eq_ok.mp prepared
      have unnamed : request.input "force" (.bool false) = .bool false := by
        rw [Request.input, Record.get?_eq_none.mpr (unforced rfl), selective.get?_eq_none (by decide)]
        rfl
      rw [Request.flag, unnamed] at flagged
      cases flagged
      cases prepared
      simp [BatchContext.readsBack, BatchContext.trashes, kept rfl]
  | store =>
      cases prepared
      rfl
  | update =>
      cases prepared
      rfl
  | restore =>
      cases prepared
      rfl

/-- What is read of the request to show an entity is what the batch has read. -/
theorem prepareBatch_shown (selective : request.IsSelective) (plain : request.BodyIsPlain)
    (kept : verb = .destroy → endpoint.resource.softDeletes = true)
    (shows : request.ShownBy verb shown)
    (prepared : endpoint.prepareBatch verb request input = .ok (context, plan)) :
    readColumns endpoint.resource shown.query = .ok context.parameters.columns ∧
      readAggregates endpoint.resource shown.query = .ok context.parameters.aggregates ∧
      TrashedScope.ofRequest endpoint.resource shown.query = .ok context.freshScope ∧
      endpoint.readRelations shown = .ok context.requested := by
  obtain ⟨_, parameters, requested, force, read, asked, rfl⟩ := prepareBatch_eq_ok prepared
  rw [readParameters, QueryParameters.ofRequest_plain plain] at read
  obtain ⟨isColumns, isAggregates, isTrashed⟩ := QueryParameters.ofRequest_reads read
  have notOnly : request.query.get? "only_trashed" = none := selective.get?_eq_none (by decide)
  have notTrashed : request.query.get? "with_trashed" = none := selective.get?_eq_none (by decide)
  rw [TrashedScope.ofRequest_live notOnly notTrashed] at isTrashed
  have isLive : parameters.trashed = .without := (Except.ok.inj isTrashed).symm
  refine ⟨?_, ?_, ?_, ?_⟩
  · rw [readColumns_congr (shows.get?_eq (by decide))]
    exact isColumns
  · rw [readAggregates_congr (shows.get?_eq (by decide))]
    exact isAggregates
  · cases shows with
    | live notDestroy _ query =>
        rw [query, TrashedScope.ofRequest_live notOnly notTrashed]
        cases verb with
        | destroy => exact absurd rfl notDestroy
        | update => exact congrArg Except.ok isLive.symm
        | store => rfl
        | restore => rfl
    | trashed means _ query =>
        refine TrashedScope.ofRequest_trashed (kept rfl) ?_ ?_ means
        · rw [query, Record.get?_set, if_neg (by decide), notOnly]
        · rw [query, Record.get?_set, if_pos rfl]
  · rw [readRelations, RelationRequest.ofRequest_alike plain shows.plain (shows.get?_eq (by decide))]
    exact asked

theorem Envelope.ofEntity_markCreated (requested : List RelationRequest) (entity : Entity) :
    Envelope.ofEntity requested entity.markCreated = Envelope.ofEntity requested entity := by
  cases entity
  rfl

/-- What is read back after a write is shown afterwards, under each key that is equal. -/
theorem view_of_refetch {key raw found : Value} {contents : Contents} {entity : Entity}
    (grants : endpoint.binding.authorizer.GrantsAll) (unscoped : endpoint.scopes = [])
    (isResource : context.resource = endpoint.resource)
    (isColumns : readColumns endpoint.resource shown.query = .ok context.parameters.columns)
    (isAggregates : readAggregates endpoint.resource shown.query =
      .ok context.parameters.aggregates)
    (isTrashed : TrashedScope.ofRequest endpoint.resource shown.query = .ok context.freshScope)
    (relations : endpoint.readRelations shown = .ok context.requested)
    (readBack : (endpoint.refetch context key).perform ({ memory.opened with contents }, side) =
      (.ok entity, ({ memory.opened with contents }, side)))
    (isKey : endpoint.resource.coerceKey raw = .ok found)
    (same : found.coincides key = true) :
    (endpoint.view shown raw).Yields ({ memory with contents }, side)
      (.envelope (.ofEntity context.requested entity)) := by
  obtain ⟨_, scalar, spec, first, built, loaded, rfl⟩ := first_of_refetch readBack
  have specResource : spec.resource = endpoint.resource := by
    obtain ⟨columns, rfl⟩ := context.freshQuery_eq_ok built
    exact isResource
  rw [isResource, ← specResource] at loaded
  have sameContents : { memory.opened with contents }.contents =
      ({ memory with contents } : Memory).contents := rfl
  have loadedAfter : (Store.first endpoint.registry (spec.forKey key)).Yields
      ({ memory with contents }, side) (some first) :=
    Action.Yields.of_sameContents (Store.first_sameContents _ _) (Store.first_ensures _ _)
      sameContents loaded
  have foundScalar := Value.isScalar_of_coincides scalar same
  have narrowed : QuerySpec.ofKeys endpoint.resource
      { columns := context.parameters.columns, aggregates := context.parameters.aggregates,
        trashed := context.freshScope } context.requested endpoint.scopes [found] =
          .ok (spec.forKey found) := by
    rw [BatchContext.freshQuery, isResource] at built
    rw [unscoped, QuerySpec.ofKeys_eq built (List.forall_mem_singleton.mpr foundScalar),
      ← specResource]
    rfl
  have viewed := perform_view grants isKey isColumns isAggregates isTrashed relations narrowed
    (Store.first_forKey scalar same loadedAfter)
  refine viewed.trans ?_
  dsimp only
  split
  · rw [Envelope.ofEntity_markCreated]
  · rfl

/-- The view of a raw key gives an answer, however the request to show it is put. -/
def ShowsAgain (endpoint : Endpoint (Memory × τ)) (request : Request) (verb : BatchVerb)
    (state : Memory × τ) (raw : Value) (answer : Answer) : Prop :=
  ∀ shown, request.ShownBy verb shown → (endpoint.view shown raw).Yields state answer

/-- An operation that stores, updates, trashes or restores an entity answers with what is shown
afterwards: under the key that it names, and under the key of the entity, if converting this one
leads to an equal key. -/
theorem answers_shown {answer : Answer} {after : Memory × τ}
    (batches : operation.BatchesOne request verb input)
    (silent : endpoint.binding.hooksFor verb = .silent)
    (grants : endpoint.binding.authorizer.GrantsAll) (unscoped : endpoint.scopes = [])
    (kept : verb = .destroy → endpoint.resource.softDeletes = true)
    (selective : request.IsSelective) (plain : request.BodyIsPlain)
    (unforced : verb = .destroy → "force" ∉ request.body.names)
    (done : (operation.perform endpoint request).perform (memory, side) = (.ok answer, after)) :
    ∃ requested entity key, answer = .envelope (.ofEntity requested entity) ∧
      endpoint.Writes operation memory.contents after.1.contents key ∧
      (∀ raw found, endpoint.resource.coerceKey raw = .ok found → found.coincides key = true →
        endpoint.ShowsAgain request verb after raw answer) ∧
      (∀ raw, operation.row? = some (verb, raw) → endpoint.ShowsAgain request verb after raw answer) ∧
      (endpoint.resource.KeyUncounted → entity.key.coincides key = true ∧
        ∀ found, endpoint.resource.coerceKey entity.key = .ok found →
          found.coincides entity.key = true →
            endpoint.ShowsAgain request verb after entity.key answer) := by
  obtain ⟨outcome, entity, rest, ran, isFirst, rfl⟩ :=
    answer_of_batchesOne batches silent grants done
  obtain ⟨context, plan, key, contents, prepared, isRequested, rfl, writes, readBack⟩ :=
    readBack_of_batchesOne batches silent grants
      (fun _ _ => prepareBatch_readsBack selective unforced kept) ran isFirst
  obtain ⟨_, parameters, _, _, read, _, isContext⟩ := prepareBatch_eq_ok prepared
  have isResource : context.resource = endpoint.resource := by rw [isContext]
  have isParameters : context.parameters = parameters := by rw [isContext]
  have shows : ∀ raw found, endpoint.resource.coerceKey raw = .ok found →
      found.coincides key = true → endpoint.ShowsAgain request verb ({ memory with contents }, side) raw
        (.envelope (.ofEntity context.requested entity)) := by
    intro raw found isKey same shown shows
    obtain ⟨isColumns, isAggregates, isTrashed, relations⟩ :=
      prepareBatch_shown selective plain kept shows prepared
    exact view_of_refetch grants unscoped isResource isColumns isAggregates isTrashed relations
      readBack isKey same
  obtain ⟨_, scalar, row, _, _, meant, spec, built, presents, _⟩ := refetch_source readBack
  have isKey := Value.isKey_of_isScalar scalar
  rw [isRequested]
  refine ⟨context.requested, entity, key, rfl, writes, shows, fun raw isRow => ?_,
    fun uncounted => ?_⟩
  · obtain ⟨found, isFound, same⟩ := writes.named verb raw isRow
    exact shows raw found isFound (Value.coincides_symm_of_isKey isKey same)
  · obtain ⟨columns, rfl⟩ := context.freshQuery_eq_ok built
    have notCounted := (uncounted.effective read).1
    rw [← isParameters, ← isResource] at notCounted
    have sameKey : entity.key.coincides key = true := by
      rw [presents.key notCounted]
      exact meant
    have entityKey := Value.isKey_of_coincides isKey sameKey
    refine ⟨sameKey, fun found isFound same => shows entity.key found isFound ?_⟩
    exact Value.coincides_trans_of_isKey entityKey isKey same sameKey

/-- A node below the first one, to be answered with its name, its parent and a count. -/
def leafBelow : Request where
  query := [("fields", .text "name,parent_id"), ("include", .text "parent"),
    ("with_count", .text "children")]
  body := [("name", .text "leaf"), ("parent_id", .int 1)]

def titlesOnly : Request where
  query := [("fields", .text "title")]

set_option maxRecDepth 10000 in
theorem answers_shown_samples :
    (∃ answer after, (treeEndpoint.store leafBelow).perform (Store.treeNodes, ()) =
        (.ok answer, after) ∧
      treeEndpoint.ShowsAgain leafBelow .store after (.text "4") answer) ∧
    ∃ answer after, (libraryBooks.destroy titlesOnly (.text " 11")).perform (threeBooks, ()) =
        (.ok answer, after) ∧
      libraryBooks.ShowsAgain titlesOnly .destroy after (.text " 11") answer := by
  have stores : (treeEndpoint.store leafBelow).comesTo (Store.treeNodes, ()) (fun _ after =>
      (after.1.contents.table "nodes").getLast?.any fun entry =>
        (Value.int 4).coincides entry.1) = true := by
    decide +kernel
  have destroys : (libraryBooks.destroy titlesOnly (.text " 11")).comesTo (threeBooks, ())
      (fun _ _ => true) = true := by
    decide +kernel
  obtain ⟨stored, withLeaf, storing, last⟩ := Action.comesTo_eq_true.mp stores
  obtain ⟨destroyed, without, destroying, _⟩ := Action.comesTo_eq_true.mp destroys
  constructor
  · obtain ⟨_, _, key, _, writes, shows, _⟩ := answers_shown .store rfl
      (show treeEndpoint.binding.authorizer.GrantsAll from Authorizer.allowAll_grantsAll)
      rfl (by rintro ⟨⟩) (show leafBelow.IsSelective by decide)
      (show ∀ name ∈ Request.parameterNames, name ∉ leafBelow.body.names by decide)
      (by rintro ⟨⟩) storing
    obtain ⟨row, added⟩ := writes.added rfl
    change withLeaf.1.contents.table "nodes" = _ at added
    rw [added, List.getLast?_append_of_ne_nil _ (List.cons_ne_nil _ _)] at last
    exact ⟨stored, withLeaf, storing, shows (.text "4") (.int 4) rfl last⟩
  · obtain ⟨_, _, _, _, _, _, shows, _⟩ := answers_shown (.destroy (.text " 11")) rfl
      (show libraryBooks.binding.authorizer.GrantsAll from Authorizer.allowAll_grantsAll)
      rfl (fun _ => rfl) (show titlesOnly.IsSelective by decide)
      (show ∀ name ∈ Request.parameterNames, name ∉ titlesOnly.body.names by decide)
      (fun _ => by decide) destroying
    exact ⟨destroyed, without, destroying, shows (.text " 11") rfl⟩

/-! ## Where a key is converted to another one -/

def gaugesEndpoint : Endpoint (Memory × Unit) where
  registry := ⟨Samples.Library.resources⟩
  now := Samples.Library.trashedAt
  binding := { resource := Samples.Library.gauges }

/-- A gauge whose level is a text. -/
def quarterText : Request where
  body := [("level", .text "0.25")]

/-- The key that was answered is converted to a number, under which there is no row. -/
theorem answers_amiss : ∃ entity after,
    (gaugesEndpoint.store quarterText).perform ({}, ()) =
      (.ok (.envelope (.ofEntity [] entity)), after) ∧
    entity.key = .text "0.25" ∧
    ((gaugesEndpoint.view {} entity.key).perform after).1.isOk = false := by
  let entity : Entity := (Store.entityOf Samples.Library.gauges
    [("level", .text "0.25"), ("note", .null)]).markCreated
  let after : Memory × Unit :=
    ({ contents := { tables := [("gauges", [(.text "0.25",
      [("level", .text "0.25"), ("note", .null)])])] } }, ())
  refine ⟨entity, after, ?_, rfl, ?_⟩
  · with_unfolding_all rfl
  · decide +kernel

end Endpoint

end ResourceServer
