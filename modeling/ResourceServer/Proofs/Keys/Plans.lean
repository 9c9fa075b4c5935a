import ResourceServer.Proofs.Keys.Confinement
import ResourceServer.Proofs.Memory.Revision
import ResourceServer.Proofs.Store.Parts

/-!
# What a plan names

The raw keys that a batch is given are converted one by one.  A plan has each of the resulting keys
once, in the order in which they are first mentioned, and for a key that is mentioned several times
it has the payload that is mentioned last.
-/

namespace ResourceServer

/-! ## Distinct keys -/

namespace Value

/-- Adds a key at the end, unless it is there. -/
def addedTo (kept : List Value) (key : Value) : List Value :=
  if key.isIn kept then kept else kept ++ [key]

theorem pairwise_foldl_addedTo {keys kept : List Value} (areKeys : ∀ key ∈ keys, key.isKey = true)
    (keptKeys : ∀ key ∈ kept, key.isKey = true)
    (apart : kept.Pairwise fun left right => left.coincides right = false) :
    (keys.foldl addedTo kept).Pairwise fun left right => left.coincides right = false := by
  induction keys generalizing kept with
  | nil => exact apart
  | cons first rest induction =>
      rw [List.forall_mem_cons] at areKeys
      rw [List.foldl_cons]
      unfold addedTo
      split
      · exact induction areKeys.2 keptKeys apart
      · rename_i absent
        refine induction areKeys.2 ?_ (List.pairwise_append.mpr
          ⟨apart, List.pairwise_singleton _ _, ?_⟩)
        · rw [List.forall_mem_append, List.forall_mem_singleton]
          exact ⟨keptKeys, areKeys.1⟩
        · intro key isKept other isOther
          obtain rfl := List.mem_singleton.mp isOther
          rw [← Bool.not_eq_true]
          exact fun same => absent (List.any_eq_true.mpr
            ⟨key, isKept, coincides_symm_of_isKey (keptKeys key isKept) same⟩)

/-- Being equal to one of some keys is the same as being equal to one of the distinct ones. -/
theorem isIn_distinct {value : Value} {keys : List Value}
    (areKeys : ∀ key ∈ keys, key.isKey = true) : value.isIn (distinct keys) = value.isIn keys := by
  rw [Bool.eq_iff_iff, isIn, isIn, List.any_eq_true, List.any_eq_true]
  constructor
  · rintro ⟨key, isKept, same⟩
    exact ⟨key, mem_of_mem_distinct isKept, same⟩
  · rintro ⟨key, member, same⟩
    obtain isKept | known := mem_distinct_or_isIn member
    · exact ⟨key, isKept, same⟩
    · obtain ⟨other, isOther, meant⟩ := List.any_eq_true.mp known
      exact ⟨other, isOther, coincides_trans_of_isKey (areKeys key member)
        (areKeys other (mem_of_mem_distinct isOther)) same meant⟩

theorem pairwise_distinct {keys : List Value} (areKeys : ∀ key ∈ keys, key.isKey = true) :
    (distinct keys).Pairwise fun left right => left.coincides right = false :=
  pairwise_foldl_addedTo areKeys (List.forall_mem_nil _) .nil

end Value

/-! ## Payloads -/

/-- A payload that was read names only fields that it may set. -/
theorem Resource.fillable_of_readPayload {resource : Resource} {schema : Option PayloadSchema}
    {isPartial : Bool} {input : Value} {payload : Record}
    (read : resource.readPayload schema isPartial input = .ok payload) :
    ∀ field ∈ payload, field.1 ∈ resource.fillableFields := by
  obtain ⟨given, rfl⟩ : ∃ given, payload = resource.filterPayload given := by
    unfold readPayload at read
    split at read
    · cases read
      exact ⟨_, rfl⟩
    · split at read
      · cases read
        exact ⟨_, rfl⟩
      · cases read
    · cases read
  intro field isField
  have isFillable := List.of_mem_filter isField
  exact List.contains_iff_mem.mp isFillable

/-! ## Lists of keys -/

namespace BatchPlan

variable {resource : Resource} {plan : BatchPlan}

theorem addKey_iff {keys added : List Value} {key : Value} :
    addKey keys key = .ok added ↔ key.isKey = true ∧ added = Value.addedTo keys key := by
  unfold addKey
  cases key.isKey with
  | true =>
      constructor
      · intro done
        cases done
        exact ⟨rfl, rfl⟩
      · rintro ⟨_, rfl⟩
        rfl
  | false => simp

theorem foldlM_addKey {items start final : List Value} :
    items.foldlM (fun keys raw => do
        let key ← resource.coerceKey raw
        addKey keys key) start = .ok final ↔
      ∃ keys, items.mapM resource.coerceKey = .ok keys ∧ (∀ key ∈ keys, key.isKey = true) ∧
        final = keys.foldl Value.addedTo start := by
  refine foldlM_eq_foldl fun keys raw added => ?_
  rw [bind_eq_ok]
  exact exists_congr fun key => and_congr_right fun _ => addKey_iff

/-- A list of raw keys names the keys that they are converted to, each one once. -/
theorem ofKeys_eq_ok {input : BatchInput} :
    ofKeys resource input = .ok plan ↔
      ∃ items keys, input.items? = some items ∧ items.mapM resource.coerceKey = .ok keys ∧
        (∀ key ∈ keys, key.isKey = true) ∧ plan = .keys (Value.distinct keys) := by
  unfold ofKeys
  cases isItems : input.items? with
  | none => simp
  | some items =>
      constructor
      · intro done
        obtain ⟨kept, read, done⟩ := bind_eq_ok.mp done
        cases done
        obtain ⟨keys, converted, areKeys, rfl⟩ := foldlM_addKey.mp read
        exact ⟨items, keys, rfl, converted, areKeys, rfl⟩
      · rintro ⟨_, keys, ⟨⟩, converted, areKeys, rfl⟩
        exact bind_eq_ok.mpr ⟨_, foldlM_addKey.mpr ⟨keys, converted, areKeys, rfl⟩, rfl⟩

/-! ## Mappings of keys to payloads -/

/-- Sets the payload of a key: in its place when the key is there already, else at the end. -/
def put (changes : List (Value × Record)) (named : Value × Record) : List (Value × Record) :=
  if changes.any fun entry => entry.1.coincides named.1 then
    changes.map fun entry => if entry.1.coincides named.1 then (entry.1, named.2) else entry
  else changes ++ [named]

theorem addChanges_iff {changes added : List (Value × Record)} {key : Value} {payload : Record} :
    addChanges changes key payload = .ok added ↔
      key.isKey = true ∧ added = put changes (key, payload) := by
  unfold addChanges
  cases key.isKey with
  | true =>
      constructor
      · intro done
        cases done
        exact ⟨rfl, rfl⟩
      · rintro ⟨_, rfl⟩
        rfl
  | false => simp

section Changes

variable {changes : List (Value × Record)} {named : Value × Record}

theorem keys_put (areKeys : ∀ entry ∈ changes, entry.1.isKey = true)
    (isKey : named.1.isKey = true) :
    (put changes named).map Prod.fst = Value.addedTo (changes.map Prod.fst) named.1 := by
  have known : (changes.any fun entry => entry.1.coincides named.1) =
      named.1.isIn (changes.map Prod.fst) := by
    rw [Value.isIn, List.any_map, Bool.eq_iff_iff, List.any_eq_true, List.any_eq_true]
    refine exists_congr fun entry => and_congr_right fun isEntry => ?_
    exact Bool.eq_iff_iff.mp (Value.coincides_comm_of_isKey (areKeys entry isEntry) isKey)
  unfold put Value.addedTo
  rw [known]
  split
  · rw [List.map_map]
    refine List.map_congr_left fun entry _ => ?_
    rw [Function.comp_apply]
    split
    · rfl
    · rfl
  · rw [List.map_append]
    rfl

theorem put_areKeys (areKeys : ∀ entry ∈ changes, entry.1.isKey = true)
    (isKey : named.1.isKey = true) : ∀ entry ∈ put changes named, entry.1.isKey = true := by
  intro entry isEntry
  unfold put at isEntry
  split at isEntry
  · obtain ⟨other, isOther, rfl⟩ := List.mem_map.mp isEntry
    split
    · exact areKeys other isOther
    · exact areKeys other isOther
  · obtain before | isNamed := List.mem_append.mp isEntry
    · exact areKeys entry before
    · rw [List.mem_singleton.mp isNamed]
      exact isKey

/-- The payload of a key is the one that was set for it last. -/
theorem changesOf_put (areKeys : ∀ entry ∈ changes, entry.1.isKey = true)
    (isKey : named.1.isKey = true) {key : Value} (keyKey : key.isKey = true) :
    changesOf (put changes named) key =
      if named.1.coincides key then named.2 else changesOf changes key := by
  -- An entry for an equal key is the one that is set, exactly when the key is the one that is set.
  have through : ∀ entry ∈ changes, entry.1.coincides key = true →
      entry.1.coincides named.1 = named.1.coincides key := by
    intro entry isEntry meant
    exact (Value.coincides_comm_of_isKey (areKeys entry isEntry) isKey).trans
      (Value.coincides_congr (areKeys entry isEntry) keyKey meant named.1)
  unfold put changesOf
  split
  · rename_i known
    have sameTest : (fun entry : Value × Record => entry.1.coincides key) ∘
        (fun entry : Value × Record =>
          if entry.1.coincides named.1 then (entry.1, named.2) else entry) =
        fun entry => entry.1.coincides key := by
      funext entry
      rw [Function.comp_apply]
      split
      · rfl
      · rfl
    rw [List.find?_map, sameTest]
    cases found : changes.find? fun entry => entry.1.coincides key with
    | some entry =>
        have meant : entry.1.coincides key = true :=
          List.find?_some (p := fun entry : Value × Record => entry.1.coincides key) found
        rw [Option.map_some, Option.map_some,
          through entry (List.mem_of_find?_eq_some found) meant]
        split
        · rfl
        · rfl
    | none =>
        rw [if_neg]
        · rfl
        · intro same
          obtain ⟨entry, isEntry, meant⟩ := List.any_eq_true.mp known
          exact List.find?_eq_none.mp found entry isEntry
            (Value.coincides_trans_of_isKey isKey keyKey meant same)
  · rename_i absent
    rw [List.find?_append, List.find?_singleton]
    cases found : changes.find? fun entry => entry.1.coincides key with
    | some entry =>
        have meant : entry.1.coincides key = true :=
          List.find?_some (p := fun entry : Value × Record => entry.1.coincides key) found
        have isEntry := List.mem_of_find?_eq_some found
        have other : ¬named.1.coincides key = true := by
          rw [← through entry isEntry meant]
          exact fun same => absent (List.any_eq_true.mpr ⟨entry, isEntry, same⟩)
        rw [Option.some_or, if_neg other]
    | none =>
        rw [Option.none_or]
        split
        · rfl
        · rfl

theorem keys_foldl_put {mentions : List (Value × Record)}
    (areKeys : ∀ entry ∈ changes, entry.1.isKey = true)
    (mentionKeys : ∀ mention ∈ mentions, mention.1.isKey = true) :
    (mentions.foldl put changes).map Prod.fst =
      (mentions.map Prod.fst).foldl Value.addedTo (changes.map Prod.fst) := by
  induction mentions generalizing changes with
  | nil => rfl
  | cons mention rest induction =>
      rw [List.forall_mem_cons] at mentionKeys
      rw [List.foldl_cons, induction (put_areKeys areKeys mentionKeys.1) mentionKeys.2,
        keys_put areKeys mentionKeys.1]
      rfl

theorem changesOf_foldl_put {mentions : List (Value × Record)}
    (areKeys : ∀ entry ∈ changes, entry.1.isKey = true)
    (mentionKeys : ∀ mention ∈ mentions, mention.1.isKey = true) {key : Value}
    (keyKey : key.isKey = true) :
    changesOf (mentions.foldl put changes) key = changesOf (mentions.reverse ++ changes) key := by
  induction mentions generalizing changes with
  | nil => rfl
  | cons mention rest induction =>
      rw [List.forall_mem_cons] at mentionKeys
      rw [List.foldl_cons, induction (put_areKeys areKeys mentionKeys.1) mentionKeys.2,
        List.reverse_cons, List.append_assoc, changesOf, changesOf, List.find?_append,
        List.find?_append]
      cases rest.reverse.find? fun entry => entry.1.coincides key with
      | some entry => rfl
      | none =>
          rw [Option.none_or, Option.none_or]
          refine (changesOf_put areKeys mentionKeys.1 keyKey).trans ?_
          rw [List.singleton_append, List.find?_cons]
          cases mention.1.coincides key with
          | true => rfl
          | false => rfl

/-- A mapping has each key once, in the order in which they are first mentioned. -/
theorem keys_mentions {mentions : List (Value × Record)}
    (areKeys : ∀ mention ∈ mentions, mention.1.isKey = true) :
    (mentions.foldl put []).map Prod.fst = Value.distinct (mentions.map Prod.fst) :=
  keys_foldl_put (List.forall_mem_nil _) areKeys

/-- The payload of a key is the one that is mentioned last. -/
theorem changesOf_mentions {mentions : List (Value × Record)}
    (areKeys : ∀ mention ∈ mentions, mention.1.isKey = true) {key : Value}
    (keyKey : key.isKey = true) :
    changesOf (mentions.foldl put []) key = changesOf mentions.reverse key := by
  rw [changesOf_foldl_put (List.forall_mem_nil _) areKeys keyKey, List.append_nil]

end Changes

variable {schema : Option PayloadSchema} {entries : List (Value × Value)}

/-- Reads a key and a payload for it. -/
def readMention (resource : Resource) (schema : Option PayloadSchema) (entry : Value × Value) :
    Except Error (Value × Record) := do
  let key ← resource.coerceKey entry.1
  let payload ← resource.readPayload schema true entry.2
  .ok (key, payload)

theorem foldlM_addChanges {start final : List (Value × Record)} :
    entries.foldlM (fun changes (rawKey, item) => do
        let key ← resource.coerceKey rawKey
        let payload ← resource.readPayload schema true item
        addChanges changes key payload) start = .ok final ↔
      ∃ mentions, entries.mapM (readMention resource schema) = .ok mentions ∧
        (∀ mention ∈ mentions, mention.1.isKey = true) ∧ final = mentions.foldl put start := by
  refine foldlM_eq_foldl fun changes entry added => ?_
  constructor
  · intro done
    obtain ⟨key, coerced, done⟩ := bind_eq_ok.mp done
    obtain ⟨payload, read, done⟩ := bind_eq_ok.mp done
    obtain ⟨isKey, isAdded⟩ := addChanges_iff.mp done
    exact ⟨(key, payload), bind_eq_ok.mpr ⟨key, coerced, bind_eq_ok.mpr ⟨payload, read, rfl⟩⟩,
      isKey, isAdded⟩
  · rintro ⟨mention, mentioned, isKey, isAdded⟩
    obtain ⟨key, coerced, mentioned⟩ := bind_eq_ok.mp mentioned
    obtain ⟨payload, read, mentioned⟩ := bind_eq_ok.mp mentioned
    cases mentioned
    exact bind_eq_ok.mpr ⟨key, coerced, bind_eq_ok.mpr ⟨payload, read,
      addChanges_iff.mpr ⟨isKey, isAdded⟩⟩⟩

/-- A mapping names the keys that its names are converted to, each one once, and for each of them
the payload that it gives last. -/
theorem ofInput_update_eq_ok {σ : Type} {binding : Binding σ} {input : BatchInput} :
    ofInput binding .update input = .ok plan ↔
      ∃ entries mentions, input.entries? = some entries ∧
        entries.mapM (readMention binding.resource binding.updatePayload) = .ok mentions ∧
        (∀ mention ∈ mentions, mention.1.isKey = true) ∧
        plan = .changes (mentions.foldl put []) := by
  unfold ofInput
  dsimp only
  cases isEntries : input.entries? with
  | none => simp
  | some entries =>
      constructor
      · intro done
        obtain ⟨kept, read, done⟩ := bind_eq_ok.mp done
        cases done
        obtain ⟨mentions, each, areKeys, rfl⟩ := foldlM_addChanges.mp read
        exact ⟨entries, mentions, rfl, each, areKeys, rfl⟩
      · rintro ⟨_, mentions, ⟨⟩, each, areKeys, rfl⟩
        exact bind_eq_ok.mpr ⟨_, foldlM_addChanges.mpr ⟨mentions, each, areKeys, rfl⟩, rfl⟩

/-- A restoring plan is read as a removing one, where rows can be trashed. -/
theorem ofInput_restore_eq_ok {σ : Type} {binding : Binding σ} {input : BatchInput} :
    ofInput binding .restore input = .ok plan ↔
      binding.resource.softDeletes = true ∧ ofKeys binding.resource input = .ok plan := by
  unfold ofInput
  dsimp only
  cases binding.resource.softDeletes with
  | true => simp
  | false => simp

/-- A plan about existing rows names no key twice, and has payloads when it is to update. -/
theorem ofInput_rows {σ : Type} {binding : Binding σ} {verb : BatchVerb} {input : BatchInput}
    (existing : verb ≠ .store) (checked : ofInput binding verb input = .ok plan) :
    (verb = .update → ∃ entries, plan = .changes entries) ∧
      plan.rowKeys.Pairwise fun left right => left.coincides right = false := by
  have listed : ofKeys binding.resource input = .ok plan →
      plan.rowKeys.Pairwise fun left right => left.coincides right = false := by
    intro checked
    obtain ⟨_, keys, _, _, areKeys, rfl⟩ := ofKeys_eq_ok.mp checked
    exact Value.pairwise_distinct areKeys
  cases verb with
  | store => exact absurd rfl existing
  | update =>
      obtain ⟨_, mentions, _, _, areKeys, rfl⟩ := ofInput_update_eq_ok.mp checked
      refine ⟨fun _ => ⟨_, rfl⟩, ?_⟩
      rw [rowKeys, keys_mentions areKeys]
      exact Value.pairwise_distinct (List.forall_mem_map.mpr areKeys)
  | destroy => exact ⟨nofun, listed checked⟩
  | restore => exact ⟨nofun, listed (ofInput_restore_eq_ok.mp checked).2⟩

end BatchPlan

end ResourceServer
