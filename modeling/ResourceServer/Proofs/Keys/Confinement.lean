import ResourceServer.Proofs.Batch.Single
import ResourceServer.Proofs.Confinement
import ResourceServer.Proofs.Keys.Denotation
import ResourceServer.Proofs.Lists

/-!
# Confinement by keys

A batch on existing rows is given raw keys.  It changes and removes only rows under keys that a raw
key means, and it does nothing at all when a raw key denotes no value of the key column.
-/

namespace ResourceServer

/-- The raw keys that a batch is given: the items of a list, or the names of a mapping. -/
def Value.rawKeys : Value → List Value
  | .list items => items
  | .object members => members.map fun member => .text member.1
  | _ => []

namespace BatchPlan

/-- The keys of the rows that a plan is about. -/
def rowKeys : BatchPlan → List Value
  | .payloads _ => []
  | .changes entries => entries.map Prod.fst
  | .keys named => named

theorem addKey_eq_ok {keys added : List Value} {key : Value} (done : addKey keys key = .ok added) :
    key.isKey = true ∧ ∀ other ∈ added, other ∈ keys ∨ other = key := by
  unfold addKey at done
  split at done
  · cases done
  · rename_i isKey
    cases done
    refine ⟨by simpa using isKey, fun other member => ?_⟩
    split at member
    · exact .inl member
    · simpa using member

theorem addChanges_eq_ok {changes added : List (Value × Record)} {key : Value} {payload : Record}
    (done : addChanges changes key payload = .ok added) :
    key.isKey = true ∧ ∀ other ∈ added.map Prod.fst, other ∈ changes.map Prod.fst ∨ other = key := by
  unfold addChanges at done
  split at done
  · cases done
  · rename_i isKey
    cases done
    refine ⟨by simpa using isKey, fun other member => ?_⟩
    split at member
    · rw [List.map_map] at member
      obtain ⟨entry, inChanges, rfl⟩ := List.mem_map.mp member
      refine .inl (List.mem_map.mpr ⟨entry, inChanges, ?_⟩)
      simp only [Function.comp_apply]
      split
      · rfl
      · rfl
    · simpa using member

theorem addKey_of_isKey {keys : List Value} {key : Value} (isKey : key.isKey = true) {error : Error} :
    addKey keys key ≠ .error error := by
  simp [addKey, isKey]

theorem addChanges_of_isKey {changes : List (Value × Record)} {key : Value} {payload : Record}
    (isKey : key.isKey = true) {error : Error} :
    addChanges changes key payload ≠ .error error := by
  simp [addChanges, isKey]

variable {type : ColumnType} {raws : List Value} {resources : Value} {plan : BatchPlan}

/-- Keys are read of raw keys: every raw key is converted, and every key comes of a conversion. -/
structure ReadsKeys (resource : Resource) (raws keys : List Value) : Prop where
  origin : ∀ key ∈ keys, key.isKey = true ∧ ∃ raw ∈ raws, resource.coerceKey raw = .ok key
  converted : ∀ raw ∈ raws, ∃ key, resource.coerceKey raw = .ok key

section Reading

variable {resource : Resource} {α β : Type} {step : β → α → Except Error β} {items : List α}

/-- Keys are read of raw keys when items are read one after another, each by converting its raw key
and adding what it is converted to. -/
theorem readsKeys_of_foldlM (rawOf : α → Value) (named : β → List Value)
    (adds : ∀ value item next, step value item = .ok next →
      ∃ key, resource.coerceKey (rawOf item) = .ok key ∧ key.isKey = true ∧
        ∀ other ∈ named next, other ∈ named value ∨ other = key)
    {start final : β} (noneNamed : named start = []) (read : items.foldlM step start = .ok final) :
    ReadsKeys resource (items.map rawOf) (named final) := by
  obtain ⟨origin, reached⟩ := foldlM_eq_ok
    (fun value => ∀ key ∈ named value,
      key.isKey = true ∧ ∃ raw ∈ items.map rawOf, resource.coerceKey raw = .ok key)
    (by simp [noneNamed]) (fun item member value next holds done key isKey => by
      obtain ⟨added, coerced, addedKey, others⟩ := adds value item next done
      obtain before | rfl := others key isKey
      · exact holds key before
      · exact ⟨addedKey, _, List.mem_map_of_mem member, coerced⟩) read
  refine ⟨origin, fun raw isRaw => ?_⟩
  obtain ⟨item, member, rfl⟩ := List.mem_map.mp isRaw
  obtain ⟨value, next, done⟩ := reached item member
  obtain ⟨key, coerced, _⟩ := adds value item next done
  exact ⟨key, coerced⟩

end Reading

theorem items?_eq_some {items : List Value} (isItems : (BatchInput.given resources).items? = some items) :
    resources = .list items := by
  cases resources with
  | list _ =>
      cases isItems
      rfl
  | _ => cases isItems

theorem entries?_eq_some {entries : List (Value × Value)}
    (isEntries : (BatchInput.given resources).entries? = some entries) :
    resources.rawKeys = entries.map Prod.fst ∧ ∃ members, resources = .object members ∧
      entries = members.map fun member => (.text member.1, member.2) := by
  cases resources with
  | object members =>
      cases isEntries
      refine ⟨?_, members, rfl, rfl⟩
      rw [List.map_map]
      rfl
  | _ => cases isEntries

theorem readsKeys_of_changes {resource : Resource} {schema : Option PayloadSchema}
    {entries : List (Value × Value)} {changes : List (Value × Record)}
    (read : entries.foldlM (fun changes (rawKey, item) => do
      let key ← resource.coerceKey rawKey
      let payload ← resource.readPayload schema true item
      addChanges changes key payload) [] = .ok changes) :
    ReadsKeys resource (entries.map Prod.fst) (changes.map Prod.fst) := by
  refine readsKeys_of_foldlM Prod.fst (List.map Prod.fst) (fun changes entry added done => ?_)
    rfl read
  obtain ⟨key, coerced, done⟩ := bind_eq_ok.mp done
  obtain ⟨payload, _, done⟩ := bind_eq_ok.mp done
  exact ⟨key, coerced, addChanges_eq_ok done⟩

theorem ofKeys_readsKeys {resource : Resource}
    (checked : ofKeys resource (.given resources) = .ok plan) :
    ReadsKeys resource resources.rawKeys plan.rowKeys := by
  unfold ofKeys at checked
  split at checked
  · cases checked
  · rename_i items isItems
    obtain ⟨keys, read, checked⟩ := bind_eq_ok.mp checked
    cases checked
    cases items?_eq_some isItems
    have reads := readsKeys_of_foldlM id id (fun keys raw added done => by
      obtain ⟨key, coerced, done⟩ := bind_eq_ok.mp done
      exact ⟨key, coerced, addKey_eq_ok done⟩) rfl read
    rwa [List.map_id] at reads

/-- The keys of a plan are read of the raw keys that the plan is read of. -/
theorem ofInput_readsKeys {σ : Type} {binding : Binding σ} {verb : BatchVerb}
    (existing : verb ≠ .store) (checked : ofInput binding verb (.given resources) = .ok plan) :
    ReadsKeys binding.resource resources.rawKeys plan.rowKeys := by
  cases verb with
  | store => exact absurd rfl existing
  | update =>
      simp only [ofInput] at checked
      split at checked
      · cases checked
      · rename_i entries isEntries
        obtain ⟨changes, read, checked⟩ := bind_eq_ok.mp checked
        cases checked
        rw [(entries?_eq_some isEntries).1]
        exact readsKeys_of_changes read
  | destroy => exact ofKeys_readsKeys checked
  | restore =>
      simp only [ofInput] at checked
      split at checked
      · exact ofKeys_readsKeys checked
      · cases checked

/-- Whatever equals the key is meant by a raw one. -/
def IsMeant (type : ColumnType) (raws : List Value) (key : Value) : Prop :=
  key.isKey = true ∧
    ∃ raw ∈ raws, ∀ filed : Value, filed.coincides key = true → type.means raw filed = true

theorem denotes_of_converts {resource : Resource} {raw : Value}
    (converts : Resource.Converts type resource raw (resource.coerceKey raw))
    (converted : ∃ key, resource.coerceKey raw = .ok key) : type.denotes raw = true := by
  obtain ⟨key, converted⟩ := converted
  rw [converted] at converts
  cases converts with
  | key _ denotes => exact denotes

/-- A payload of a mapping is refused after everything before it was read. -/
def RefusesPayload {σ : Type} (type : ColumnType) (binding : Binding σ) (resources : Value)
    (error : Error) : Prop :=
  ∃ done name payload rest, resources = .object (done ++ (name, payload) :: rest) ∧
    (∀ member ∈ done ++ [(name, payload)], type.denotes (.text member.1) = true) ∧
      binding.resource.readPayload binding.updatePayload true payload = .error error

/-- Reading a list of keys fails with a fault of the request that is no other than its shape or a raw
key. -/
theorem ofKeys_malformed {resource : Resource}
    (converts : ∀ raw ∈ resources.rawKeys,
      Resource.Converts type resource raw (resource.coerceKey raw)) {error : Error}
    (failed : ofKeys resource (.given resources) = .error error) :
    error.category = .malformedRequest := by
  unfold ofKeys at failed
  split at failed
  · cases failed
    rfl
  · rename_i items isItems
    cases items?_eq_some isItems
    obtain failed | ⟨keys, _, failed⟩ := bind_eq_error.mp failed
    · obtain ⟨done, raw, rest, keys, rfl, _, failed⟩ := foldlM_eq_error failed
      have converts := converts raw (by simp [Value.rawKeys])
      obtain failed | ⟨key, coerced, failed⟩ := bind_eq_error.mp failed
      · rw [failed] at converts
        cases converts
        rfl
      · rw [coerced] at converts
        cases converts with
        | key isKey => exact absurd failed (addKey_of_isKey isKey)
    · cases failed

/-- Reading changes by key fails with a fault of the request, or with a refused payload. -/
theorem ofInput_update_fault {σ : Type} {binding : Binding σ}
    (converts : ∀ raw ∈ resources.rawKeys,
      Resource.Converts type binding.resource raw (binding.resource.coerceKey raw)) {error : Error}
    (failed : ofInput binding .update (.given resources) = .error error) :
    error.category = .malformedRequest ∨ RefusesPayload type binding resources error := by
  simp only [ofInput] at failed
  split at failed
  · cases failed
    exact .inl rfl
  · rename_i entries isEntries
    obtain ⟨_, members, rfl, rfl⟩ := entries?_eq_some isEntries
    obtain failed | ⟨changes, _, failed⟩ := bind_eq_error.mp failed
    · obtain ⟨done, entry, rest, changes, isEntry, read, failed⟩ := foldlM_eq_error failed
      obtain ⟨before, after, rfl, rfl, isAfter⟩ := List.map_eq_append_iff.mp isEntry
      obtain ⟨⟨name, payload⟩, later, rfl, rfl, rfl⟩ := List.map_eq_cons_iff.mp isAfter
      have here := converts (.text name) (by simp [Value.rawKeys])
      obtain failed | ⟨key, coerced, failed⟩ := bind_eq_error.mp failed
      · rw [failed] at here
        cases here
        exact .inl rfl
      · rw [coerced] at here
        cases here with
        | key isKey denotes =>
            obtain failed | ⟨values, _, failed⟩ := bind_eq_error.mp failed
            · refine .inr ⟨before, name, payload, later, rfl, fun member isMember => ?_, failed⟩
              obtain isMember | isMember := List.mem_append.mp isMember
              · refine denotes_of_converts (converts _ ?_)
                  ((readsKeys_of_changes read).converted _ ?_)
                · exact List.mem_map.mpr ⟨member, List.mem_append_left _ isMember, rfl⟩
                · exact List.mem_map_of_mem (List.mem_map_of_mem isMember)
              · cases List.mem_singleton.mp isMember
                exact denotes
            · exact absurd failed (addChanges_of_isKey isKey)
    · cases failed

/-- Whatever fails to be read of raw keys is a fault of the request: one of its shape or of a raw key,
the lack of soft deletes, or a refused payload. -/
theorem ofInput_fault {σ : Type} {binding : Binding σ} {verb : BatchVerb} (existing : verb ≠ .store)
    (converts : ∀ raw ∈ resources.rawKeys,
      Resource.Converts type binding.resource raw (binding.resource.coerceKey raw)) {error : Error}
    (failed : ofInput binding verb (.given resources) = .error error) :
    error.category = .malformedRequest ∨
      (verb = .restore ∧ binding.resource.softDeletes = false ∧
        error = .noSoftDeletes binding.resource.name) ∨
      (verb = .update ∧ RefusesPayload type binding resources error) := by
  cases verb with
  | store => exact absurd rfl existing
  | update =>
      obtain malformed | refused := ofInput_update_fault converts failed
      · exact .inl malformed
      · exact .inr (.inr ⟨rfl, refused⟩)
  | destroy => exact .inl (ofKeys_malformed converts failed)
  | restore =>
      simp only [ofInput] at failed
      split at failed
      · exact .inl (ofKeys_malformed converts failed)
      · rename_i noSoftDeletes
        cases failed
        exact .inr (.inl ⟨rfl, by simpa using noSoftDeletes, rfl⟩)

end BatchPlan

namespace Endpoint

variable {τ : Type} {endpoint : Endpoint (Memory × τ)} {context : BatchContext}
variable {type : ColumnType} {raws : List Value} {plan : BatchPlan}

/-- The targets of a plan about existing rows have the keys of the plan. -/
theorem targets_named (endpoint : Endpoint (Memory × τ)) (context : BatchContext)
    (existing : ∀ payloads, plan ≠ .payloads payloads) :
    (endpoint.targets context plan).Ensures (· = ·) fun targets =>
      ∀ target ∈ targets, ∃ key ∈ plan.rowKeys, target.entity.key.coincides key = true := by
  cases plan with
  | payloads payloads => exact absurd rfl (existing payloads)
  | changes entries =>
      refine .bind (endpoint.fetchTargets_named context _) fun entities named => .pure ?_
      intro target member
      obtain ⟨entity, isEntity, rfl⟩ := List.mem_map.mp member
      exact named entity isEntity
  | keys keys =>
      refine .bind (endpoint.fetchTargets_named context _) fun entities named => .pure ?_
      intro target member
      obtain ⟨entity, isEntity, rfl⟩ := List.mem_map.mp member
      exact named entity isEntity

/-- The keys of rows that a raw key means. -/
def meantBy (type : ColumnType) (raws : List Value) (key : Value) : Bool :=
  raws.any fun raw => type.means raw key

/-- Inside its transaction, a batch changes rows only under keys that are meant by raw ones. -/
theorem execute_within {verb : BatchVerb} (existing : verb ≠ .store)
    (untouched : endpoint.binding.Respects Untouched SameKey)
    (isResource : context.resource = endpoint.resource) (isVerb : context.verb = verb)
    (noneDone : context.entities = [])
    (aboutRows : ∀ payloads, plan ≠ .payloads payloads)
    (meant : ∀ key ∈ plan.rowKeys, BatchPlan.IsMeant type raws key) :
    ((endpoint.steps (endpoint.binding.hooksFor verb)).execute context plan).Ensures
      (Within endpoint.resource.name (meantBy type raws)) fun _ => True := by
  have respects : BatchSteps.Respects (Within endpoint.resource.name (meantBy type raws)) SameKey
      _ context (endpoint.steps (endpoint.binding.hooksFor verb)) :=
    steps_within existing untouched isResource isVerb
  have found : (endpoint.targets { context with entities := [] } plan).Ensures
      (Within endpoint.resource.name (meantBy type raws)) fun targets => ∀ target ∈ targets,
        ∀ other : Value, other.coincides target.entity.key = true →
          meantBy type raws other = true := by
    refine ((endpoint.targets_named _ aboutRows).relax ?_).weaken ?_
    · rintro before after rfl
      exact Std.Refl.refl before
    · intro targets named target member other same
      obtain ⟨key, isKey, coincide⟩ := named target member
      obtain ⟨keyKey, raw, isRaw, means⟩ := meant key isKey
      have entityKey := Value.isKey_of_coincides keyKey coincide
      refine List.any_eq_true.mpr ⟨raw, isRaw, means other ?_⟩
      exact Value.coincides_trans_of_isKey entityKey keyKey same coincide
  have executes := respects.execute [] plan found
  rwa [show { context with entities := [] } = context by rw [← noneDone]] at executes

/-- A batch that could be checked changes and removes rows only under keys that are meant by raw
ones. -/
theorem runBatch_changesOnly {verb : BatchVerb} (existing : verb ≠ .store)
    (untouched : endpoint.binding.Respects Untouched SameKey) {request : Request}
    {input : BatchInput}
    (meant : ∀ plan, BatchPlan.ofInput endpoint.binding verb input = .ok plan →
      ∀ key ∈ plan.rowKeys, BatchPlan.IsMeant type raws key) (memory : Memory) (side : τ) :
    memory.contents.ChangesOnly endpoint.resource.name (meantBy type raws)
      ((endpoint.runBatch verb request input).perform (memory, side)).2.1.contents := by
  cases prepared : endpoint.prepareBatch verb request input with
  | error error =>
      rw [(runBatch_unprepared prepared).1]
      exact Std.Refl.refl memory.contents
  | ok both =>
      obtain ⟨context, plan⟩ := both
      rw [(runBatch_prepared prepared).1]
      cases isOpen : memory.snapshot with
      | some snapshot =>
          rw [BatchSteps.perform_run, Memory.perform_begin_again isOpen]
          exact Std.Refl.refl memory.contents
      | none =>
          obtain ⟨checked, _, _, _, _, _, isContext⟩ := prepareBatch_eq_ok prepared
          have isResource : context.resource = endpoint.resource := by rw [isContext]
          have isVerb : context.verb = verb := by rw [isContext]
          have noneDone : context.entities = [] := by rw [isContext]
          have aboutRows : ∀ payloads, plan ≠ .payloads payloads := by
            rintro payloads rfl
            obtain ⟨_, isChanges⟩ | ⟨_, isKeys⟩ := ofInput_targets existing checked
            · cases isChanges
            · cases isKeys
          have leaves : endpoint.binding.Respects Memory.KeepsTransaction fun _ _ => True :=
            untouched.relax (fun _ _ => Untouched.keepsTransaction) fun _ _ _ => trivial
          rw [BatchSteps.perform_run_memory (execute_keepsTransaction leaves noneDone) isOpen]
          have within := (execute_within existing untouched isResource isVerb noneDone aboutRows
            (meant plan checked) (memory.opened, side)).1
          revert within
          generalize (BatchSteps.execute _ context plan).perform (memory.opened, side) = inside
          obtain ⟨result, after⟩ := inside
          intro within
          cases result with
          | error error => exact Std.Refl.refl memory.contents
          | ok outcome => exact within.2.2

/-- A batch on existing rows whose raw keys are not altered changes and removes rows only under keys
that are equal to a raw key, or are spelled by one.  When moreover none of them is garbled and one of
them denotes no value of the key column, the batch does nothing and fails: with a fault of the shape
or of a raw key, unless the rows cannot be restored at all or a payload before that raw key is
refused. -/
theorem batch_keysConfined (endpoint : Endpoint (Memory × τ)) {column : Column}
    (isColumn : endpoint.resource.model.column? endpoint.resource.keyName = some column)
    (typed : column.type ∈ [ColumnType.integer, .real, .text]) {verb : BatchVerb}
    (existing : verb ≠ .store) (untouched : endpoint.binding.Respects Untouched SameKey)
    (request : Request)
    (unaltered : ∀ raw ∈ (request.body.get "resources").rawKeys, column.type.alters raw = false)
    (memory : Memory) (side : τ) :
    let raws := (request.body.get "resources").rawKeys
    let ran := ((Operation.batch verb).perform endpoint request).perform (memory, side)
    memory.contents.ChangesOnly endpoint.resource.name (meantBy column.type raws)
        ran.2.1.contents ∧
      ((∀ raw ∈ raws, column.type.garbles raw = false) →
        (∃ raw ∈ raws, column.type.denotes raw = false) →
          ∃ error, ran = (.error error, (memory, side)) ∧
            (error.category = .malformedRequest ∨
              (verb = .restore ∧ endpoint.resource.softDeletes = false ∧
                error = .noSoftDeletes endpoint.resource.name) ∨
              (verb = .update ∧ BatchPlan.RefusesPayload column.type endpoint.binding
                (request.body.get "resources") error))) := by
  intro raws ran
  have isBatch : (Operation.batch verb).perform endpoint request =
      endpoint.batch verb request := by
    cases verb with
    | store => exact absurd rfl existing
    | _ => rfl
  have isRun : ran = _ := (congrArg (Action.perform · (memory, side)) isBatch).trans
    (endpoint.perform_batch verb request (memory, side))
  refine ⟨?_, ?_⟩
  · rw [isRun]
    refine endpoint.runBatch_changesOnly existing untouched ?_ memory side
    intro plan checked key isKey
    obtain ⟨keyKey, raw, isRaw, converted⟩ :=
      (BatchPlan.ofInput_readsKeys existing checked).origin key isKey
    exact ⟨keyKey, raw, isRaw,
      Resource.coerceKey_means isColumn typed (unaltered raw isRaw) converted⟩
  · rintro faithful ⟨raw, isRaw, denotesNone⟩
    have converts : ∀ raw ∈ raws, Resource.Converts column.type endpoint.resource raw
        (endpoint.resource.coerceKey raw) :=
      fun raw member => Resource.coerceKey_converts isColumn typed (faithful raw member)
    cases checked : BatchPlan.ofInput endpoint.binding verb (resourcesOf request) with
    | ok plan =>
        have denotes := BatchPlan.denotes_of_converts (converts raw isRaw)
          ((BatchPlan.ofInput_readsKeys existing checked).converted raw isRaw)
        rw [denotesNone] at denotes
        cases denotes
    | error error =>
        have unprepared : endpoint.prepareBatch verb request (resourcesOf request) =
            .error error := by
          rw [prepareBatch, checked]
          rfl
        refine ⟨error, ?_, BatchPlan.ofInput_fault existing converts checked⟩
        rw [isRun, (runBatch_unprepared unprepared).1]
        rfl

end Endpoint

theorem nodeEndpoint_untouched :
    Endpoint.nodeEndpoint.binding.Respects Endpoint.Untouched Endpoint.SameKey where
  authorizer _ _ _ := by
    refine .pure ?_
    rintro entity changed rfl same
    cases same
    rfl
  hooks _ := trivial

/-- A run of a batch of nodes on some raw keys. -/
def runOnNodes (verb : BatchVerb) (raws : List Value) : Except Error Answer × Memory × Unit :=
  ((Operation.batch verb).perform Endpoint.nodeEndpoint
    { body := [("resources", .list raws)] }).perform (filedNodes, ())

/-- Two and a half. -/
def twoAndHalf : Value := .float (.finite false 5 (-1))

/-- Restoring nodes by a text that is no numeral fails, but not for this text, as nodes have no soft
deletes; and destroying the node whose key is two and a half removes the second one. -/
theorem unmeant_row_removed :
    Endpoint.nodeEndpoint.binding.Respects Endpoint.Untouched Endpoint.SameKey ∧
      (ColumnType.integer.denotes (.text "x") = false ∧
        (runOnNodes .restore [.text "x"]).1 = .error (.noSoftDeletes "nodes")) ∧
      ColumnType.integer.means twoAndHalf (.int 2) = false ∧
        ((runOnNodes .destroy [twoAndHalf]).2.1.contents.table "nodes").all
          (fun entry => !entry.1.same (.int 2)) = true := by
  refine ⟨nodeEndpoint_untouched, ⟨by decide +kernel, by with_unfolding_all rfl⟩, ?_, ?_⟩
  · decide +kernel
  · decide +kernel

/-- Destroying nodes by the numeral of two removes the second node and changes no other, and by a
word among the keys it fails for that word and removes none. -/
theorem batch_keysConfined_nodes :
    filedNodes.contents.ChangesOnly "nodes" (Endpoint.meantBy .integer [.text " 2 "])
        (runOnNodes .destroy [.text " 2 "]).2.1.contents ∧
      ((runOnNodes .destroy [.text " 2 "]).2.1.contents.table "nodes").length = 1 ∧
        ∃ error, runOnNodes .destroy [.int 2, .text "x"] = (.error error, (filedNodes, ())) ∧
          error.category = .malformedRequest := by
  have existing : BatchVerb.destroy ≠ .store := nofun
  have confined := fun raws => Endpoint.nodeEndpoint.batch_keysConfined rfl (by decide) existing
    nodeEndpoint_untouched { body := [("resources", .list raws)] }
  refine ⟨?_, by decide +kernel, ?_⟩
  · exact (confined [.text " 2 "] (by decide +kernel) filedNodes ()).1
  · obtain ⟨error, ran, malformed | ⟨isRestore, _⟩ | ⟨isUpdate, _⟩⟩ :=
      (confined [.int 2, .text "x"] (by decide +kernel) filedNodes ()).2 (by decide +kernel)
        ⟨.text "x", List.mem_cons_of_mem _ List.mem_cons_self, by decide +kernel⟩
    · exact ⟨error, ran, malformed⟩
    · cases isRestore
    · cases isUpdate

end ResourceServer
