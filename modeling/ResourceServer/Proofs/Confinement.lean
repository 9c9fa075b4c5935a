import ResourceServer.Operations
import ResourceServer.Proofs.Batch.Transaction
import ResourceServer.Proofs.Memory.Change
import ResourceServer.Proofs.Memory.Selection
import ResourceServer.Samples.Library

/-!
# Confinement by scopes

An endpoint with scopes shows and changes only rows on which every scope holds.  Scopes are
part of every specification that an endpoint puts together, next to whatever a request asks
for, so they hold on every row that is selected.  A batch writes under the keys of rows that
it has selected before its first write.
-/

namespace ResourceServer

/-- Every scope holds on the row. -/
def InScope (scopes : List Filter.Node) (row : Record) : Prop :=
  ∀ scope ∈ scopes, scope.evaluate row = .ok true

/-- Without an order to sort by, only the counts that are asked for are taken. -/
theorem QueryParameters.effectiveAggregates_of_unsorted {parameters : QueryParameters}
    {resource : Resource} (unsorted : parameters.sorts = []) :
    parameters.effectiveAggregates resource = parameters.aggregates := by
  unfold effectiveAggregates
  rw [unsorted]
  induction resource.aggregates with
  | nil => rfl
  | cons name rest induction =>
      simp only [List.foldl_cons, List.any_nil, Bool.false_eq_true, if_false, ite_self]
        at induction ⊢
      exact induction

theorem QueryParameters.effectiveAggregates_eq_nil {parameters : QueryParameters}
    {resource : Resource} (noCounts : parameters.aggregates = [])
    (unsorted : parameters.sorts = []) : parameters.effectiveAggregates resource = [] := by
  rw [effectiveAggregates_of_unsorted unsorted, noCounts]

namespace QuerySpec

theorem wheres_foldl_whereNode (spec : QuerySpec) (nodes : List Filter.Node) :
    nodes.foldl whereNode spec = { spec with wheres := spec.wheres ++ nodes } := by
  induction nodes generalizing spec with
  | nil => simp
  | cons node rest induction =>
      rw [List.foldl_cons, induction]
      simp [whereNode]

/-- Scopes come first among the filters of a query, and the counts are those that rows are
shown with or sorted by. -/
theorem ofParameters_confined {resource : Resource} {parameters : QueryParameters}
    {requests : List RelationRequest} {scopes : List Filter.Node} {spec : QuerySpec}
    (done : ofParameters resource parameters requests scopes = .ok spec) :
    spec.resource = resource ∧ (∃ more, spec.wheres = scopes ++ more) ∧
      spec.aggregates = parameters.effectiveAggregates resource := by
  unfold ofParameters at done
  simp only [wheres_foldl_whereNode] at done
  split at done
  · cases done
    exact ⟨rfl, ⟨_, rfl⟩, rfl⟩
  · obtain ⟨selected, _, done⟩ := bind_eq_ok.mp done
    cases done
    exact ⟨rfl, ⟨_, rfl⟩, rfl⟩

theorem ofKeys_confined {resource : Resource} {parameters : QueryParameters}
    {requests : List RelationRequest} {scopes : List Filter.Node} {keys : List Value}
    {spec : QuerySpec} (done : ofKeys resource parameters requests scopes keys = .ok spec) :
    spec.resource = resource ∧ (∃ more, spec.wheres = scopes ++ more) ∧
      spec.aggregates = parameters.effectiveAggregates resource := by
  obtain ⟨wide, parsed, done⟩ := bind_eq_ok.mp done
  obtain ⟨isResource, ⟨more, confined⟩, counts⟩ := ofParameters_confined parsed
  obtain ⟨leaf, _, done⟩ := bind_eq_ok.mp done
  cases done
  refine ⟨isResource, ⟨more ++ [.leaf leaf], ?_⟩, counts⟩
  simp [whereNode, confined]

end QuerySpec

/-- What is loaded comes from rows that match, and has their keys. -/
theorem Store.Loads.source {registry : Registry} {contents : Contents} {spec : QuerySpec}
    {rows : List Record} {entities : List Entity} {offset limit : Option Int}
    (fetched : contents.fetchRows registry spec offset limit = .ok rows)
    (loads : Loads spec.resource rows entities) :
    ∀ entity ∈ entities, ∃ row ∈ (contents.table spec.resource.name).rows,
      Contents.rowMatches spec row = .ok true ∧ ∃ counted,
        Contents.withCounts registry contents spec row = .ok counted ∧
          entity.bare = entityOf spec.resource (counted.project (Contents.resultNames spec)) ∧
            entity.key = counted.get spec.resource.keyName := by
  intro entity member
  have inBare : entity.bare ∈ entities.map Entity.bare := List.mem_map_of_mem member
  rw [loads.2] at inBare
  obtain ⟨result, inRows, isEntity⟩ := List.mem_map.mp inBare
  have hasKey := loads.1 result inRows
  obtain ⟨row, inTable, matching, counted, counts, rfl⟩ :=
    Contents.fetchRows_selects fetched result inRows
  refine ⟨row, inTable, matching, counted, counts, isEntity.symm, ?_⟩
  rw [← Entity.key_bare, ← isEntity, ← Record.get_project (Record.has_project.mp hasKey)]
  rfl

/-- An entity that shows a row of the endpoint's resource on which every scope holds: the row
with its counts, cut to the columns that are wanted. -/
def Endpoint.Shows {σ : Type} (endpoint : Endpoint σ) (contents : Contents) (entity : Entity) :
    Prop :=
  ∃ row ∈ (contents.table endpoint.resource.name).rows, InScope endpoint.scopes row ∧
    ∃ spec counted, spec.resource = endpoint.resource ∧
      Contents.withCounts endpoint.registry contents spec row = .ok counted ∧
        entity.bare =
          Store.entityOf endpoint.resource (counted.project (Contents.resultNames spec))

namespace Endpoint

variable {τ : Type} {endpoint : Endpoint (Memory × τ)}

/-- What a confined specification selects are rows in scope. -/
theorem loads_inScope {contents : Contents} {spec : QuerySpec} {rows : List Record}
    {entities : List Entity} {offset limit : Option Int}
    (isResource : spec.resource = endpoint.resource)
    (confined : ∃ more, spec.wheres = endpoint.scopes ++ more)
    (fetched : contents.fetchRows endpoint.registry spec offset limit = .ok rows)
    (loads : Store.Loads spec.resource rows entities) :
    ∀ entity ∈ entities, ∃ row ∈ (contents.table endpoint.resource.name).rows,
      InScope endpoint.scopes row ∧ ∃ counted,
        Contents.withCounts endpoint.registry contents spec row = .ok counted ∧
          entity.bare =
              Store.entityOf endpoint.resource (counted.project (Contents.resultNames spec)) ∧
            entity.key = counted.get endpoint.resource.keyName := by
  intro entity member
  obtain ⟨row, inTable, matching, counted, counts, isEntity, isKey⟩ :=
    loads.source fetched entity member
  obtain ⟨more, wheres⟩ := confined
  have holds := Filter.evaluateAll_eq_true.mp (Contents.evaluateAll_of_rowMatches matching)
  rw [isResource] at inTable isEntity isKey
  refine ⟨row, inTable, ?_, counted, counts, isEntity, isKey⟩
  intro scope inScopes
  exact holds scope (by simp [wheres, inScopes])

theorem shows_of_loads {contents : Contents} {spec : QuerySpec} {rows : List Record}
    {entities : List Entity} {offset limit : Option Int}
    (isResource : spec.resource = endpoint.resource)
    (confined : ∃ more, spec.wheres = endpoint.scopes ++ more)
    (fetched : contents.fetchRows endpoint.registry spec offset limit = .ok rows)
    (loads : Store.Loads spec.resource rows entities) :
    ∀ entity ∈ entities, endpoint.Shows contents entity := by
  intro entity member
  obtain ⟨row, inTable, inScope, counted, counts, shown, _⟩ :=
    loads_inScope isResource confined fetched loads entity member
  exact ⟨row, inTable, inScope, spec, counted, isResource, counts, shown⟩

/-! ## Reading -/

/-- The answer lists entities in scope, as they stand in the store that the operation leaves. -/
def ListsInScope (endpoint : Endpoint (Memory × τ)) (answer : Answer) (after : Memory × τ) :
    Prop :=
  ∃ envelope requested entities, answer = .envelope envelope ∧
    envelope.data = Envelope.dataOf requested entities ∧
      ∀ entity ∈ entities, endpoint.Shows after.1.contents entity

theorem collection_listsInScope {request : Request} {parameters : QueryParameters}
    {before after : Memory × τ} {answer : Answer}
    (done : (endpoint.collection request parameters).perform before = (.ok answer, after)) :
    endpoint.ListsInScope answer after := by
  obtain ⟨memory, side⟩ := before
  obtain ⟨requested, spec, _, parsed, done⟩ := collection_eq_ok.mp done
  obtain ⟨isResource, confined, _⟩ := QuerySpec.ofParameters_confined parsed
  split at done
  · obtain ⟨entities, loaded, rfl⟩ := done
    obtain ⟨rfl, rows, fetched, loads⟩ := Store.get_eq_ok loaded
    exact ⟨_, requested, entities, rfl, rfl, shows_of_loads isResource confined fetched loads⟩
  · obtain ⟨page, envelope, loaded, wrapped, rfl⟩ := done
    obtain ⟨rfl, rows, fetched, loads⟩ := Store.paginate_eq_ok loaded
    obtain ⟨lastPage, _, isEnvelope⟩ := bind_eq_ok.mp wrapped
    cases isEnvelope
    exact ⟨_, requested, page.items, rfl, rfl,
      shows_of_loads isResource confined fetched loads⟩

/-- A listing shows only rows in scope. -/
theorem index_listsInScope {request : Request} {before after : Memory × τ} {answer : Answer}
    (done : (endpoint.index request).perform before = (.ok answer, after)) :
    endpoint.ListsInScope answer after := by
  obtain ⟨_, parameters, _, _, done⟩ := index_eq_ok.mp done
  exact collection_listsInScope done

theorem search_listsInScope {request : Request} {before after : Memory × τ} {answer : Answer}
    (done : (endpoint.search request).perform before = (.ok answer, after)) :
    endpoint.ListsInScope answer after := by
  obtain ⟨_, middle, _, done⟩ := Action.perform_bind_eq_ok.mp done
  obtain ⟨parameters, _, done⟩ := Action.perform_compute_eq_ok.mp done
  exact collection_listsInScope done

/-- The entity that is shown is a row in scope, as the authorizer leaves it. -/
theorem view_inScope {request : Request} {key : Value} {before after : Memory × τ}
    {answer : Answer}
    (done : (endpoint.view request key).perform before = (.ok answer, after)) :
    ∃ requested entity shown, answer = .envelope (.ofEntity requested shown) ∧
      endpoint.Shows before.1.contents entity ∧
        (endpoint.binding.authorizer.checkEntity .view entity request.user).perform before =
          (.ok shown, after) := by
  obtain ⟨memory, side⟩ := before
  obtain ⟨key, _, done⟩ := Action.perform_compute_eq_ok.mp done
  obtain ⟨columns, _, done⟩ := Action.perform_compute_eq_ok.mp done
  obtain ⟨aggregates, _, done⟩ := Action.perform_compute_eq_ok.mp done
  obtain ⟨trashed, _, done⟩ := Action.perform_compute_eq_ok.mp done
  obtain ⟨requested, _, done⟩ := Action.perform_compute_eq_ok.mp done
  obtain ⟨spec, parsed, done⟩ := Action.perform_compute_eq_ok.mp done
  obtain ⟨isResource, confined, _⟩ := QuerySpec.ofKeys_confined parsed
  obtain ⟨found, middle, loaded, done⟩ := Action.perform_bind_eq_ok.mp done
  obtain ⟨rfl, rows, entities, fetched, loads, isFound⟩ := Store.first_eq_ok loaded
  cases found with
  | none => cases done
  | some entity =>
      obtain ⟨shown, last, checked, done⟩ := Action.perform_bind_eq_ok.mp done
      cases done
      have member : entity ∈ entities := List.mem_of_mem_head? isFound.symm
      exact ⟨requested, entity, shown, rfl,
        shows_of_loads isResource confined fetched loads entity member, checked⟩

/-! ## Writing -/

/-- An entity with the key of a row in scope. -/
def KeyInScope (endpoint : Endpoint (Memory × τ)) (contents : Contents) (entity : Entity) :
    Prop :=
  ∃ row ∈ (contents.table endpoint.resource.name).rows,
    InScope endpoint.scopes row ∧ entity.key = row.get endpoint.resource.keyName

theorem fetchTargets_keyInScope {context : BatchContext} {keys : List Value} {memory : Memory}
    {side : τ} {found : List Entity} {after : Memory × τ}
    (isResource : context.resource = endpoint.resource)
    (isScopes : context.scopes = endpoint.scopes)
    (done : (endpoint.fetchTargets context keys).perform (memory, side) = (.ok found, after)) :
    ∀ entity ∈ found, endpoint.KeyInScope memory.contents entity := by
  unfold fetchTargets at done
  split at done
  · cases done
    simp
  · obtain ⟨spec, parsed, done⟩ := Action.perform_compute_eq_ok.mp done
    rw [isResource, isScopes] at parsed
    obtain ⟨specResource, confined, counts⟩ := QuerySpec.ofKeys_confined parsed
    rw [QueryParameters.effectiveAggregates_eq_nil rfl rfl] at counts
    obtain ⟨entities, middle, loaded, done⟩ := Action.perform_bind_eq_ok.mp done
    obtain ⟨_, rows, fetched, loads⟩ := Store.get_eq_ok loaded
    cases done
    intro entity member
    obtain ⟨key, _, last⟩ := List.mem_filterMap.mp member
    have inEntities : entity ∈ entities :=
      (List.mem_filter.mp (List.mem_of_getLast? last)).1
    obtain ⟨row, inTable, inScope, counted, counting, _, isKey⟩ :=
      loads_inScope specResource confined fetched loads entity inEntities
    rw [Contents.withCounts, counts] at counting
    cases counting
    exact ⟨row, inTable, inScope, isKey⟩

/-- A plan for existing rows names them by their keys. -/
theorem ofInput_targets {σ : Type} {binding : Binding σ} {verb : BatchVerb}
    (existing : verb ≠ .store) {input : BatchInput} {plan : BatchPlan}
    (checked : BatchPlan.ofInput binding verb input = .ok plan) :
    (∃ changes, plan = .changes changes) ∨ ∃ keys, plan = .keys keys := by
  have ofKeys : BatchPlan.ofKeys binding.resource input = .ok plan →
      ∃ keys, plan = .keys keys := by
    intro checked
    unfold BatchPlan.ofKeys at checked
    split at checked
    · cases checked
    · obtain ⟨keys, _, checked⟩ := bind_eq_ok.mp checked
      cases checked
      exact ⟨keys, rfl⟩
  cases verb with
  | store => exact absurd rfl existing
  | update =>
      simp only [BatchPlan.ofInput] at checked
      split at checked
      · cases checked
      · obtain ⟨changes, _, checked⟩ := bind_eq_ok.mp checked
        cases checked
        exact .inl ⟨changes, rfl⟩
  | destroy => exact .inr (ofKeys checked)
  | restore =>
      simp only [BatchPlan.ofInput] at checked
      split at checked
      · exact .inr (ofKeys checked)
      · cases checked

/-- A batch on existing rows has only targets with keys of rows in scope. -/
theorem targets_keyInScope {verb : BatchVerb} (existing : verb ≠ .store) {request : Request}
    {input : BatchInput} {context : BatchContext} {plan : BatchPlan} {memory : Memory}
    {side : τ} {found : List BatchTarget} {after : Memory × τ}
    (prepared : endpoint.prepareBatch verb request input = .ok (context, plan))
    (done : (endpoint.targets context plan).perform (memory, side) = (.ok found, after)) :
    ∀ target ∈ found, endpoint.KeyInScope memory.contents target.entity := by
  obtain ⟨checked, parameters, requested, force, _, _, rfl⟩ := prepareBatch_eq_ok prepared
  cases ofInput_targets existing checked with
  | inl isChanges =>
      obtain ⟨changes, rfl⟩ := isChanges
      obtain ⟨entities, middle, fetched, done⟩ := Action.perform_bind_eq_ok.mp done
      cases done
      intro target member
      obtain ⟨entity, inEntities, rfl⟩ := List.mem_map.mp member
      exact fetchTargets_keyInScope rfl rfl fetched entity inEntities
  | inr isKeys =>
      obtain ⟨keys, rfl⟩ := isKeys
      obtain ⟨entities, middle, fetched, done⟩ := Action.perform_bind_eq_ok.mp done
      cases done
      intro target member
      obtain ⟨entity, inEntities, rfl⟩ := List.mem_map.mp member
      exact fetchTargets_keyInScope rfl rfl fetched entity inEntities

/-- A call that does not touch the store. -/
def Untouched (before after : Memory × τ) : Prop := after.1 = before.1

/-- A call that leaves an entity with the key it had. -/
def SameKey (before after : Entity) : Prop := after.key = before.key

/-- Rows change only in the table of one name and under allowed keys; the transaction stays. -/
def Within (name : String) (allowed : Value → Bool) (before after : Memory × τ) : Prop :=
  after.1.snapshot = before.1.snapshot ∧ after.1.locks = before.1.locks ∧
    before.1.contents.ChangesOnly name allowed after.1.contents

instance : Std.Refl (@Untouched τ) := ⟨fun _ => rfl⟩

instance : IsTrans (Memory × τ) Untouched := ⟨fun _ _ _ first second => second.trans first⟩

instance : Std.Refl SameKey := ⟨fun _ => rfl⟩

instance : IsTrans Entity SameKey := ⟨fun _ _ _ first second => second.trans first⟩

variable {name : String} {allowed : Value → Bool}

instance : Std.Refl (@Within τ name allowed) := ⟨fun _ => ⟨rfl, rfl, Std.Refl.refl _⟩⟩

instance : IsTrans (Memory × τ) (Within name allowed) where
  trans _ _ _ first second :=
    ⟨second.1.trans first.1, second.2.1.trans first.2.1,
      IsTrans.trans _ _ _ first.2.2 second.2.2⟩

theorem Untouched.within {before after : Memory × τ} (untouched : Untouched before after) :
    Within name allowed before after := by
  rw [Untouched] at untouched
  rw [Within, untouched]
  exact ⟨rfl, rfl, Std.Refl.refl _⟩

theorem Untouched.keepsTransaction {before after : Memory × τ}
    (untouched : Untouched before after) : Memory.KeepsTransaction before after := by
  intro _
  rw [Untouched] at untouched
  rw [untouched]
  exact ⟨rfl, rfl⟩

theorem update_within {resource : Resource} {key : Value} {changes : Record}
    (permitted : ∀ other : Value, other.coincides key = true → allowed other = true) :
    (Store.update resource key changes : Action (Memory × τ) _).Ensures
      (Within resource.name allowed) fun _ => True :=
  Memory.write_ensures _ fun _ _ _ _ done =>
    ⟨rfl, rfl, Contents.update_changesOnly permitted done⟩

theorem delete_within {resource : Resource} {key : Value}
    (permitted : ∀ other : Value, other.coincides key = true → allowed other = true) :
    (Store.delete resource key : Action (Memory × τ) _).Ensures
      (Within resource.name allowed) fun _ => True :=
  Memory.write_ensures _ fun _ _ _ _ done =>
    ⟨rfl, rfl, Contents.delete_changesOnly permitted done⟩

/-- The steps of a batch on existing rows write under the keys of their targets only. -/
theorem steps_within {verb : BatchVerb} (existing : verb ≠ .store)
    (untouched : endpoint.binding.Respects Untouched SameKey) {context : BatchContext}
    (isResource : context.resource = endpoint.resource) (isVerb : context.verb = verb) :
    (endpoint.steps (endpoint.binding.hooksFor verb)).Respects
      (Within endpoint.resource.name allowed) SameKey
      (fun target => ∀ other : Value, other.coincides target.entity.key = true →
        allowed other = true) context := by
  refine steps_respects (untouched.relax (fun _ _ => Untouched.within) fun _ _ same => same)
    ?_ ?_ verb
  · intro done target entity permitted sameKey
    rw [SameKey] at sameKey
    rw [← sameKey] at permitted
    refine endpoint.mutate_ensures _ target entity ?_ ?_ ?_
    · intro stores
      exact absurd (isVerb.symm.trans stores) existing
    · intro _ changes
      rw [← isResource]
      exact update_within permitted
    · intro _
      rw [← isResource]
      exact delete_within permitted
  · intro target entity sameKey
    unfold BatchTarget.filled
    split
    · cases entity
      exact sameKey
    · exact sameKey

/-- Rows change only under keys of rows that are in scope before. -/
def ChangesInScope (endpoint : Endpoint (Memory × τ)) (before after : Memory × τ) : Prop :=
  ∃ allowed : Value → Bool,
    (∀ key, allowed key = true → ∃ row ∈ (before.1.contents.table endpoint.resource.name).rows,
      InScope endpoint.scopes row ∧
        key.coincides (row.get endpoint.resource.keyName) = true) ∧
    Within endpoint.resource.name allowed before after

theorem Untouched.changesInScope {before after : Memory × τ}
    (untouched : Untouched before after) : endpoint.ChangesInScope before after :=
  ⟨fun _ => false, nofun, untouched.within⟩

theorem ChangesInScope.after_untouched {before middle after : Memory × τ}
    (untouched : Untouched before middle) (changes : endpoint.ChangesInScope middle after) :
    endpoint.ChangesInScope before after := by
  obtain ⟨before, _⟩ := before
  obtain ⟨middle, _⟩ := middle
  cases untouched
  exact changes

/-- Targets with keys of rows in scope are served by writing under these keys only. -/
theorem serve_changesInScope {verb : BatchVerb} (existing : verb ≠ .store)
    (untouched : endpoint.binding.Respects Untouched SameKey) {context : BatchContext}
    (isResource : context.resource = endpoint.resource) (isVerb : context.verb = verb)
    (noneDone : { context with entities := [] } = context) {targets : List BatchTarget}
    {before : Memory × τ}
    (inScope : ∀ target ∈ targets, endpoint.KeyInScope before.1.contents target.entity) :
    let steps := endpoint.steps (endpoint.binding.hooksFor verb)
    endpoint.ChangesInScope before
      ((steps.processAll context targets >>= steps.conclude).perform before).2 := by
  let allowed (key : Value) : Bool := targets.any fun target => key.coincides target.entity.key
  have serves := (steps_within existing untouched isResource isVerb).serve [] targets
    (fun target member other same => List.any_eq_true.mpr ⟨target, member, same⟩ :
      ∀ target ∈ targets, ∀ other : Value, other.coincides target.entity.key = true →
        allowed other = true)
  rw [noneDone] at serves
  refine ⟨allowed, ?_, (serves before).1⟩
  intro key permitted
  obtain ⟨target, member, same⟩ := List.any_eq_true.mp permitted
  obtain ⟨row, inTable, holds, isKey⟩ := inScope target member
  rw [isKey] at same
  exact ⟨row, inTable, holds, same⟩

/-- Inside its transaction, a batch on existing rows changes rows only under keys of rows that
were in scope when it started. -/
theorem execute_changesInScope {verb : BatchVerb} (existing : verb ≠ .store)
    (untouched : endpoint.binding.Respects Untouched SameKey) {request : Request}
    {input : BatchInput} {context : BatchContext} {plan : BatchPlan}
    (prepared : endpoint.prepareBatch verb request input = .ok (context, plan))
    (before : Memory × τ) :
    endpoint.ChangesInScope before
      (((endpoint.steps (endpoint.binding.hooksFor verb)).execute context plan).perform
        before).2 := by
  have opening : Interruptible.Ensures Untouched (fun _ => True)
      ((endpoint.steps (endpoint.binding.hooksFor verb)).atBatch .beforeBatch context) := by
    refine proceeding_ensures ?_
    exact .bind (Hooks.atBatch_ensures (untouched.hooks verb) _ _) fun _ _ => .pure trivial
  have isTargets : (endpoint.steps (endpoint.binding.hooksFor verb)).targets context plan =
      endpoint.targets context plan := rfl
  rw [BatchSteps.perform_execute, isTargets]
  have kept := (opening before).1
  revert kept
  cases (BatchSteps.atBatch _ .beforeBatch context).run.perform before with
  | mk result middle =>
      intro kept
      cases result with
      | error error => exact Untouched.changesInScope kept
      | ok interruptible =>
          cases interruptible with
          | error response => exact Untouched.changesInScope kept
          | ok opened =>
              dsimp only
              have unmoved := (endpoint.targets_ensures context plan middle).1
              cases fetched : (endpoint.targets context plan).perform middle with
              | mk found after =>
                  rw [fetched] at unmoved
                  cases unmoved
                  cases found with
                  | error error => exact Untouched.changesInScope kept
                  | ok targets =>
                      have inScope := targets_keyInScope existing prepared fetched
                      obtain ⟨_, parameters, requested, force, _, _, rfl⟩ :=
                        prepareBatch_eq_ok prepared
                      exact ChangesInScope.after_untouched kept
                        (serve_changesInScope existing untouched rfl rfl rfl inScope)

/-- Only rows in scope are changed or removed: every other row of the resource is there
afterwards, no row is added, and nothing else is touched. -/
structure ConfinedChange (endpoint : Endpoint (Memory × τ)) (before after : Contents) :
    Prop where
  others : ∀ other, other ≠ endpoint.resource.name → after.table other = before.table other
  sequences : after.sequences = before.sequences
  kept : ∀ entry ∈ before.table endpoint.resource.name,
    entry ∈ after.table endpoint.resource.name ∨ InScope endpoint.scopes entry.2
  noneAdded : ∀ entry ∈ after.table endpoint.resource.name,
    entry ∈ before.table endpoint.resource.name ∨
      ∃ row, (entry.1, row) ∈ before.table endpoint.resource.name ∧ InScope endpoint.scopes row

theorem ConfinedChange.refl (contents : Contents) : endpoint.ConfinedChange contents contents :=
  ⟨fun _ _ => rfl, rfl, fun _ member => .inl member, fun _ member => .inl member⟩

/-- When every row is filed under its key, the keys of rows in scope lead to these rows. -/
theorem ChangesInScope.confined {before after : Memory × τ}
    (wellFiled : (before.1.contents.table endpoint.resource.name).WellFiled
      endpoint.resource.keyName)
    (changes : endpoint.ChangesInScope before after) :
    endpoint.ConfinedChange before.1.contents after.1.contents := by
  obtain ⟨allowed, keysInScope, _, _, within⟩ := changes
  have inScope : ∀ entry ∈ before.1.contents.table endpoint.resource.name,
      allowed entry.1 = true → InScope endpoint.scopes entry.2 := by
    intro entry member permitted
    obtain ⟨row, inRows, holds, same⟩ := keysInScope entry.1 permitted
    obtain ⟨other, otherMember, rfl⟩ := List.mem_map.mp inRows
    rw [wellFiled.filed other otherMember] at same
    rwa [wellFiled.entry_eq member otherMember same]
  refine ⟨within.others, within.sequences, ?_, ?_⟩
  · intro entry member
    cases permitted : allowed entry.1 with
    | true => exact .inr (inScope entry member permitted)
    | false => exact .inl ((within.mem_iff permitted).mpr member)
  · intro entry member
    cases permitted : allowed entry.1 with
    | true =>
        obtain ⟨other, otherMember, sameKey⟩ :=
          List.mem_map.mp (within.keys.subset (List.mem_map_of_mem member))
        rw [← sameKey] at permitted ⊢
        exact .inr ⟨other.2, otherMember, inScope other otherMember permitted⟩
    | false => exact .inl ((within.mem_iff permitted).mp member)

/-- A batch on existing rows changes or removes only rows in scope. -/
theorem runBatch_confined {verb : BatchVerb} (existing : verb ≠ .store)
    (untouched : endpoint.binding.Respects Untouched SameKey) (request : Request)
    (input : BatchInput) (memory : Memory) (side : τ)
    (wellFiled : (memory.contents.table endpoint.resource.name).WellFiled
      endpoint.resource.keyName) :
    endpoint.ConfinedChange memory.contents
      ((endpoint.runBatch verb request input).perform (memory, side)).2.1.contents := by
  cases prepared : endpoint.prepareBatch verb request input with
  | error error =>
      rw [(runBatch_unprepared prepared).1]
      exact .refl memory.contents
  | ok both =>
      obtain ⟨context, plan⟩ := both
      rw [(runBatch_prepared prepared).1]
      cases isOpen : memory.snapshot with
      | some snapshot =>
          rw [BatchSteps.perform_run, Memory.perform_begin_again isOpen]
          exact .refl memory.contents
      | none =>
          have noneDone : context.entities = [] := by
            obtain ⟨_, _, _, _, _, _, rfl⟩ := prepareBatch_eq_ok prepared
            rfl
          have leaves : endpoint.binding.Respects Memory.KeepsTransaction fun _ _ => True :=
            untouched.relax (fun _ _ => Untouched.keepsTransaction) fun _ _ _ => trivial
          have keeps : ((endpoint.steps (endpoint.binding.hooksFor verb)).execute context
              plan).Ensures Memory.KeepsTransaction fun _ => True :=
            execute_keepsTransaction leaves noneDone
          have changes := execute_changesInScope existing untouched prepared
            (memory.opened, side)
          rw [BatchSteps.perform_run_memory keeps isOpen]
          revert changes
          generalize (BatchSteps.execute _ context plan).perform (memory.opened, side) = inside
          obtain ⟨result, after⟩ := inside
          intro changes
          cases result with
          | error error => exact .refl memory.contents
          | ok outcome => exact changes.confined wellFiled

end Endpoint

/-- Whether an operation updates, destroys or restores rows that exist. -/
def Operation.onExisting : Operation → Bool
  | .update _ | .destroy _ | .restore _ => true
  | .batch verb => verb != .store
  | _ => false

variable {τ : Type}

/-- What follows a batch of one in an operation leaves the store alone. -/
theorem Endpoint.perform_answerSingle (endpoint : Endpoint (Memory × τ))
    (batch : Action (Memory × τ) BatchOutcome) (key : Value) (state : Memory × τ) :
    ((batch >>= endpoint.answerSingle key).perform state).2 = (batch.perform state).2 := by
  rw [Action.perform_bind]
  cases batch.perform state with
  | mk result after =>
      cases result with
      | error error => rfl
      | ok outcome =>
          dsimp only
          unfold answerSingle
          split
          · rfl
          · rfl
          · rfl

/-- An operation on several rows is its batch, with an answer made of the outcome. -/
theorem Endpoint.perform_batch (endpoint : Endpoint (Memory × τ)) (verb : BatchVerb)
    (request : Request) (state : Memory × τ) :
    (endpoint.batch verb request).perform state =
      (((endpoint.runBatch verb request (resourcesOf request)).perform state).1.map answerMany,
        ((endpoint.runBatch verb request (resourcesOf request)).perform state).2) := by
  rw [batch, Action.perform_bind]
  cases (endpoint.runBatch verb request (resourcesOf request)).perform state with
  | mk result after => cases result <;> rfl

/-- Operations on existing rows change or remove only rows in scope. -/
theorem Operation.perform_confined {operation : Operation}
    (existing : operation.onExisting = true) {endpoint : Endpoint (Memory × τ)}
    (untouched : endpoint.binding.Respects Endpoint.Untouched Endpoint.SameKey)
    (request : Request) (memory : Memory) (side : τ)
    (wellFiled : (memory.contents.table endpoint.resource.name).WellFiled
      endpoint.resource.keyName) :
    endpoint.ConfinedChange memory.contents
      ((operation.perform endpoint request).perform (memory, side)).2.1.contents := by
  have single : ∀ verb, verb ≠ .store → ∀ input key, endpoint.ConfinedChange memory.contents
      ((endpoint.runBatch verb request input >>= endpoint.answerSingle key).perform
        (memory, side)).2.1.contents := by
    intro verb existing input key
    rw [endpoint.perform_answerSingle]
    exact Endpoint.runBatch_confined existing untouched request input memory side wellFiled
  have many : ∀ verb, verb ≠ .store → endpoint.ConfinedChange memory.contents
      ((endpoint.batch verb request).perform (memory, side)).2.1.contents := by
    intro verb existing
    rw [endpoint.perform_batch]
    exact Endpoint.runBatch_confined existing untouched request _ memory side wellFiled
  cases operation with
  | index | search | view | store => cases existing
  | update key =>
      simp only [Operation.perform, Endpoint.update]
      split
      · exact .refl memory.contents
      · exact single .update nofun _ _
  | destroy key => exact single .destroy nofun _ _
  | restore key => exact single .restore nofun _ _
  | batch verb =>
      cases verb with
      | store => cases existing
      | update => exact many .update nofun
      | destroy => exact many .destroy nofun
      | restore => exact many .restore nofun

/-- An endpoint for the children of the first node of a tree. -/
def childrenEndpoint : Endpoint (Memory × Unit) where
  registry := {}
  now := Samples.Library.trashedAt
  binding := { resource := Samples.Library.nodes }
  scopes := [.leaf { field := "parent_id", operator := .eq, operand := .int 1 }]

theorem childrenEndpoint_untouched :
    childrenEndpoint.binding.Respects Endpoint.Untouched Endpoint.SameKey where
  authorizer _ _ _ := by
    refine .pure ?_
    rintro entity changed rfl same
    cases same
    rfl
  hooks _ := trivial

/-- Nodes that are filed under their keys: a child of the first node, and a child of another. -/
def filedNodes : Memory where
  contents := { tables := [("nodes",
    [(.int 2, Samples.Library.nodeRow 2 "left" (.int 1) (.int 2)),
      (.int 4, Samples.Library.nodeRow 4 "leaf" (.int 2) .null)])] }

/-- The same nodes after the key column of the first one was overwritten: it is filed under one
key and carries the key of the other. -/
def misfiledNodes : Memory where
  contents := { tables := [("nodes",
    [(.int 2, Samples.Library.nodeRow 4 "left" (.int 1) (.int 2)),
      (.int 4, Samples.Library.nodeRow 4 "leaf" (.int 2) .null)])] }

/-- A request to destroy the node of a key. -/
def destroyRequest (key : Int) : Request where
  body := [("resources", .list [.int key])]

end ResourceServer
