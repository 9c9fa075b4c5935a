import ResourceServer.Proofs.Batch.Reaching
import ResourceServer.Proofs.Belonging
import ResourceServer.Proofs.Keys.Plans
import ResourceServer.Proofs.Resolution.Memory

/-!
# Appending

A batch that stores adds one row for each payload at the end of the table, in the order of the
payloads.  A row holds the attributes that the endpoint demands over what the payload says over the
defaults of the columns, and is filed under a new key.  Where rows are filed under their keys, the
answer presents these rows.
-/

namespace ResourceServer

/-! ## Rows -/

namespace Record

variable {record other changes : Record} {name : String}

theorem get?_merge_congr (same : record.get? name = other.get? name) :
    (record.merge changes).get? name = (other.merge changes).get? name := by
  unfold merge
  induction changes generalizing record other with
  | nil => exact same
  | cons change rest induction =>
      refine induction ?_
      rw [get?_set, get?_set, same]

theorem has_merge_iff :
    (record.merge changes).has name = true ↔ record.has name = true ∨ changes.has name = true := by
  unfold merge
  induction changes generalizing record with
  | nil => exact (or_iff_left Bool.false_ne_true).symm
  | cons change rest induction =>
      have first : has (change :: rest) name = true ↔
          name = change.1 ∨ has rest name = true := by
        rw [has, List.any_cons, Bool.or_eq_true, beq_iff_eq, eq_comm]
        rfl
      rw [List.foldl_cons, induction, has_set_iff, first, or_comm (a := name = change.1), or_assoc]

end Record

theorem Entries.lookup_filter_of_kept {α : Type} {entries : List (String × α)} {name : String}
    {keep : String × α → Bool} (kept : ∀ entry ∈ entries, entry.1 = name → keep entry = true) :
    (entries.filter keep).lookup name = entries.lookup name := by
  induction entries with
  | nil => rfl
  | cons entry rest induction =>
      obtain ⟨first, value⟩ := entry
      rw [List.forall_mem_cons] at kept
      rw [List.filter_cons, lookup_cons]
      split
      · rw [lookup_cons, induction kept.2]
      · rename_i dropped
        rw [induction kept.2, if_neg]
        rintro rfl
        exact dropped (kept.1 rfl)

namespace Model

variable {model : Model} {values others : Record} {name : String}

theorem get_rowOf_congr (same : values.get? name = others.get? name) :
    (model.rowOf values).get name = (model.rowOf others).get name := by
  rw [Record.get, rowOf, lookup_columns, Record.get, rowOf, lookup_columns]
  unfold column?
  cases found : model.columns.find? fun column => column.name == name with
  | none => rfl
  | some column =>
      have isName : column.name = name := by
        simpa using List.find?_some found
      rw [Option.map_some, Option.map_some, isName, same]

/-- Only what is said about columns counts for a row. -/
theorem rowOf_congr (same : ∀ name ∈ model.columnNames, values.get? name = others.get? name) :
    model.rowOf values = model.rowOf others := by
  refine List.map_congr_left fun column isColumn => ?_
  rw [same column.name (List.mem_map_of_mem isColumn)]

end Model

namespace Resource

/-- The key of a row that says nothing about it. -/
def fallbackKey (resource : Resource) : Value := (resource.model.rowOf []).get resource.keyName

/-- The row that is added for some attributes under a key. -/
def newRow (resource : Resource) (attributes : Record) (key : Value) : Record :=
  (resource.model.rowOf attributes).set resource.keyName key

variable {resource : Resource} {attributes : Record}

theorem get_newRow_key (key : Value) :
    (resource.newRow attributes key).get resource.keyName = key :=
  (Record.get_set _ _ _ _).trans (if_pos rfl)

theorem rowOf_newValues {entity : Entity}
    (unnamed : entity.attributes.has resource.keyName = false) :
    resource.model.rowOf (BatchTarget.newValues resource entity) =
      resource.model.rowOf entity.attributes := by
  refine Model.rowOf_congr fun name isColumn => Entries.lookup_filter_of_kept ?_
  rintro entry isEntry rfl
  have isKnown : resource.columns.contains entry.1 = true := List.contains_iff_mem.mpr isColumn
  have notKey : entry.1 ≠ resource.keyName := by
    intro isKey
    rw [Record.has, List.any_eq_false] at unnamed
    exact unnamed entry isEntry (beq_iff_eq.mpr isKey)
  rw [isKnown, bne_iff_ne.mpr notKey]
  rfl

theorem key_not_fillable (fillable : resource.fillable = none) :
    resource.keyName ∉ resource.fillableFields := by
  rw [fillableFields, fillable]
  intro isFillable
  have kept := List.of_mem_filter isFillable
  rw [bne_self_eq_false] at kept
  cases kept

end Resource

/-! ## One row -/

/-- A row was added at the end of a table: it is made of some attributes, and filed under the next
whole number that is free, or under the default of the key column when there is one. -/
structure Contents.Adds (resource : Resource) (attributes : Record) (before after : Contents)
    (entry : Value × Record) : Prop where
  row : entry.2 = resource.newRow attributes entry.1
  rows : after.table resource.name = before.table resource.name ++ [entry]
  others : ∀ other, other ≠ resource.name → after.table other = before.table other
  absent : (before.table resource.name).hasKey entry.1 = false
  numbered : resource.fallbackKey = .null ∧
      (∃ number, before.sequence resource.name < number ∧ entry.1 = .int number) ∨
    resource.fallbackKey ≠ .null ∧ entry.1 = resource.fallbackKey
  counted : ∀ number, entry.1 = .int number → number ≤ after.sequence resource.name
  sequence : before.sequence resource.name ≤ after.sequence resource.name

namespace Contents

variable {resource : Resource} {contents after : Contents} {key : Value}

theorem insert_adds {entity : Entity} (unnamed : entity.attributes.has resource.keyName = false)
    (done : contents.insert resource (BatchTarget.newValues resource entity) = .ok (key, after)) :
    Adds resource entity.attributes contents after
      (key, resource.newRow entity.attributes key) := by
  obtain ⟨isNew, _, absent, _, rfl⟩ := insert_eq_ok done
  rw [Resource.rowOf_newValues unnamed]
  have fallback : (resource.model.rowOf (BatchTarget.newValues resource entity)).get
      resource.keyName = resource.fallbackKey := by
    rw [Resource.rowOf_newValues unnamed]
    refine Model.get_rowOf_congr (Record.get?_eq_none.mpr ?_)
    rw [← Record.has_eq_true, unnamed]
    exact Bool.false_ne_true
  refine ⟨rfl, ?_, fun other different => ?_, absent, ?_, fun number isNumber => ?_, ?_⟩
  · rw [table_withKey, table_withTable]
    rfl
  · rw [table_withKey, table_withTable_other different]
  · by_cases keyless : resource.fallbackKey = .null
    · refine .inl ⟨keyless, ?_⟩
      rw [← fallback] at keyless
      rw [newKey_keyless keyless] at isNew
      have above := (Table.freeKey_spec _ _ (Table.exists_free (contents.table resource.name)
        (contents.sequence resource.name + 1))).2.1
      exact ⟨_, by omega, isNew⟩
    · refine .inr ⟨keyless, ?_⟩
      rw [← fallback] at keyless ⊢
      rw [isNew, newKey]
      split
      · contradiction
      · rfl
  · refine le_sequence_withKey ?_ resource.name
    cases isNumber
    rfl
  · exact sequence_le_withKey _ _

end Contents

/-! ## Several rows -/

/-- Rows were added at the end of a table, one for each of some attributes and in their order, under
increasing keys that were free.  Nothing else was changed but the sequence of the resource. -/
structure Contents.Appends (resource : Resource) (attributes : List Record)
    (before after : Contents) (entries : List (Value × Record)) : Prop where
  rows : after.table resource.name = before.table resource.name ++ entries
  others : ∀ other, other ≠ resource.name → after.table other = before.table other
  made : List.Forall₂ (fun attributes entry => entry.2 = resource.newRow attributes entry.1)
    attributes entries
  absent : ∀ entry ∈ entries, (before.table resource.name).hasKey entry.1 = false
  numbered : ∀ entry ∈ entries, resource.fallbackKey = .null ∧
      (∃ number, before.sequence resource.name < number ∧ entry.1 = .int number) ∨
    resource.fallbackKey ≠ .null ∧ entry.1 = resource.fallbackKey
  increasing : entries.Pairwise fun first second =>
    ∃ smaller larger : Int, first.1 = .int smaller ∧ second.1 = .int larger ∧ smaller < larger

namespace Contents

variable {resource : Resource} {before middle after : Contents} {attributes : Record}
variable {more : List Record} {entry : Value × Record} {entries : List (Value × Record)}

theorem Appends.nil : Appends resource [] before before [] where
  rows := (List.append_nil _).symm
  others _ _ := rfl
  made := .nil
  absent _ member := by cases member
  numbered _ member := by cases member
  increasing := .nil

theorem Appends.cons (first : Adds resource attributes before middle entry)
    (self : entry.1.coincides entry.1 = true)
    (rest : Appends resource more middle after entries) :
    Appends resource (attributes :: more) before after (entry :: entries) where
  rows := by rw [rest.rows, first.rows, List.append_assoc, List.singleton_append]
  others other different := (rest.others other different).trans (first.others other different)
  made := .cons first.row rest.made
  absent := by
    refine List.forall_mem_cons.mpr ⟨first.absent, fun later isLater => ?_⟩
    have free := rest.absent later isLater
    rw [first.rows, Table.hasKey, List.any_append, Bool.or_eq_false_iff] at free
    exact free.1
  numbered := by
    refine List.forall_mem_cons.mpr ⟨first.numbered, fun later isLater => ?_⟩
    obtain ⟨keyless, number, above, isNumber⟩ | isFallback := rest.numbered later isLater
    · exact .inl ⟨keyless, number, lt_of_le_of_lt first.sequence above, isNumber⟩
    · exact .inr isFallback
  increasing := by
    refine List.pairwise_cons.mpr ⟨fun later isLater => ?_, rest.increasing⟩
    obtain ⟨keyless, number, above, isNumber⟩ | ⟨given, isFallback⟩ :=
      rest.numbered later isLater
    · obtain ⟨_, smaller, _, isSmaller⟩ | ⟨given, _⟩ := first.numbered
      · have counted := first.counted smaller isSmaller
        exact ⟨smaller, number, isSmaller, isNumber, lt_of_le_of_lt counted above⟩
      · exact absurd keyless given
    · -- Both rows would be filed under the default, which is taken by the first one.
      obtain ⟨keyless, _⟩ | ⟨_, isFirst⟩ := first.numbered
      · exact absurd keyless given
      · have free := rest.absent later isLater
        rw [isFallback, ← isFirst, first.rows, Table.hasKey, List.any_append, List.any_cons, self,
          Bool.true_or, Bool.or_true] at free
        cases free

end Contents

/-! ## Targets -/

namespace Endpoint

variable {τ : Type} {endpoint : Endpoint (Memory × τ)} {context : BatchContext}
variable {memory : Memory} {side : τ}

/-- What a batch answers with for a row that it has added: an entity that is marked as new, and that
presents the row where the rows of the resource are filed under their keys. -/
structure AnswersAdded (context : BatchContext) (filed : Prop) (entry : Value × Record)
    (entity : Entity) : Prop where
  created : entity.wasRecentlyCreated = true
  presents : filed → ∃ spec, context.freshQuery = .ok spec ∧ entity.Presents spec entry

/-- Rows are filed under the values of their key column. -/
def Filed (endpoint : Endpoint (Memory × τ)) (contents : Contents) : Prop :=
  ∀ entry ∈ contents.table endpoint.resource.name,
    entry.2.get endpoint.resource.keyName = entry.1

/-- A target of a batch that stores adds a row, and is answered with it. -/
theorem serveTarget_adds (grants : endpoint.binding.authorizer.GrantsAll)
    (isVerb : context.verb = .store) (isResource : context.resource = endpoint.resource)
    {target : BatchTarget} (unnamed : target.entity.attributes.has endpoint.resource.keyName = false)
    {entity : Entity} {after : Memory × τ}
    (done : (endpoint.serveTarget context target).perform (memory, side) = (.ok entity, after)) :
    ∃ entry contents, after = ({ memory with contents }, side) ∧
      Contents.Adds endpoint.resource target.entity.attributes memory.contents contents entry ∧
      entry.1.coincides entry.1 = true ∧
      AnswersAdded context (endpoint.Filed memory.contents) entry entity := by
  rw [perform_serveTarget grants] at done
  obtain ⟨key, middle, mutated, done⟩ := Action.perform_bind_eq_ok.mp done
  have unfilled : target.filled context.verb target.entity = target.entity := by
    rw [isVerb]
    rfl
  rw [unfilled, mutate, isVerb, isResource] at mutated
  obtain ⟨contents, inserted, rfl⟩ := Memory.perform_insert_eq_ok mutated
  have adds := Contents.insert_adds unnamed inserted
  have readBack : (endpoint.refetch context key).perform ({ memory with contents }, side) =
      (.ok entity, after) := by
    rw [BatchSteps.refresh, BatchContext.readsBack, isVerb] at done
    exact done
  obtain ⟨rfl, scalar, row, inTable, _, same, spec, built, presents, created, _⟩ :=
    refetch_source readBack
  rw [isResource] at inTable same presents
  have isKey := Value.isKey_of_isScalar scalar
  refine ⟨_, contents, rfl, adds, ?_, ?_, fun filed => ⟨spec, built, ?_⟩⟩
  · have foundKey := Value.isKey_of_coincides isKey same
    exact Value.coincides_trans_of_isKey foundKey isKey
      (Value.coincides_symm_of_isKey foundKey same) same
  · rw [created, isVerb]
    rfl
  · -- No row that was there before has the new key, so the row that was found is the new one.
    obtain ⟨entry, isEntry, rfl⟩ := List.mem_map.mp inTable
    change entry ∈ contents.table endpoint.resource.name at isEntry
    rw [adds.rows, List.mem_append, List.mem_singleton] at isEntry
    obtain earlier | rfl := isEntry
    · rw [filed entry earlier, Table.hasKey_eq_false adds.absent earlier] at same
      cases same
    · rwa [Resource.get_newRow_key] at presents

theorem Filed.adds {attributes : Record} {before after : Contents} {entry : Value × Record}
    (filed : endpoint.Filed before)
    (adds : Contents.Adds endpoint.resource attributes before after entry) :
    endpoint.Filed after := by
  intro other isOther
  rw [adds.rows, List.mem_append, List.mem_singleton] at isOther
  obtain earlier | rfl := isOther
  · exact filed other earlier
  · rw [adds.row, Resource.get_newRow_key]

/-- Targets of a batch that stores add one row each. -/
theorem serveTargets_append (grants : endpoint.binding.authorizer.GrantsAll)
    (isVerb : context.verb = .store) (isResource : context.resource = endpoint.resource)
    {targets : List BatchTarget}
    (unnamed : ∀ target ∈ targets,
      target.entity.attributes.has endpoint.resource.keyName = false)
    {entities : List Entity} {after : Memory × τ}
    (done : (targets.mapM (endpoint.serveTarget context)).perform (memory, side) =
      (.ok entities, after)) :
    ∃ entries contents, after = ({ memory with contents }, side) ∧
      Contents.Appends endpoint.resource (targets.map fun target => target.entity.attributes)
        memory.contents contents entries ∧
      List.Forall₂ (AnswersAdded context (endpoint.Filed memory.contents)) entries entities := by
  induction targets generalizing memory entities with
  | nil =>
      cases done
      exact ⟨[], memory.contents, rfl, .nil, .nil⟩
  | cons target targets induction =>
      rw [List.mapM_cons] at done
      obtain ⟨entity, middle, served, done⟩ := Action.perform_bind_eq_ok.mp done
      obtain ⟨others, last, later, done⟩ := Action.perform_bind_eq_ok.mp done
      cases done
      rw [List.forall_mem_cons] at unnamed
      obtain ⟨entry, contents, rfl, adds, self, answer⟩ :=
        serveTarget_adds grants isVerb isResource unnamed.1 served
      obtain ⟨entries, last, rfl, appends, answers⟩ := induction unnamed.2 later
      refine ⟨entry :: entries, last, rfl, appends.cons adds self, .cons answer ?_⟩
      refine answers.imp fun _ _ answers => ⟨answers.created, fun filed => ?_⟩
      exact answers.presents (filed.adds adds)

/-! ## Batches -/

/-- The attributes that are stored for a payload. -/
def stored (endpoint : Endpoint (Memory × τ)) (payload : Record) : Record :=
  payload.merge endpoint.attributes

/-- What is added for a payload holds the demanded value or the default in each column that the
payload may not set. -/
theorem get_newRow_unfillable {payload : Record} {name : String}
    (fields : ∀ field ∈ payload, field.1 ∈ endpoint.resource.fillableFields)
    (notKey : name ≠ endpoint.resource.keyName) (unfillable : name ∉ endpoint.resource.fillableFields)
    (key : Value) :
    (endpoint.resource.newRow (endpoint.stored payload) key).get name =
      (endpoint.resource.model.rowOf (endpoint.stored [])).get name := by
  rw [Resource.newRow, Record.get_set, if_neg notKey]
  refine Model.get_rowOf_congr (Record.get?_merge_congr (Record.get?_eq_none.mpr ?_))
  intro isNamed
  obtain ⟨field, isField, rfl⟩ := List.mem_map.mp isNamed
  exact unfillable (fields field isField)

theorem key_unstored {payload : Record} (fillable : endpoint.resource.fillable = none)
    (unforced : endpoint.attributes.has endpoint.resource.keyName = false)
    (fields : ∀ field ∈ payload, field.1 ∈ endpoint.resource.fillableFields) :
    (endpoint.stored payload).has endpoint.resource.keyName = false := by
  rw [← Bool.not_eq_true, stored, Record.has_merge_iff, unforced, or_iff_left Bool.false_ne_true,
    Record.has_eq_true]
  intro isNamed
  obtain ⟨field, isField, isKey⟩ := List.mem_map.mp isNamed
  exact Resource.key_not_fillable fillable (isKey ▸ fields field isField)

/-- Nodes below an endpoint that demands a rank. -/
def rankedEndpoint : Endpoint (Memory × Unit) := { treeEndpoint with attributes := [("rank", .int 7)] }

/-- Two nodes, of which one wants a key and a rank of its own. -/
def twoNodes : BatchInput := .given (.list [.object [("id", .int 1), ("rank", .int 2)],
  .object [("name", .text "leaf"), ("parent_id", .int 1)]])

/-- A node whose key column was overwritten with the key that is next. -/
def preemptedNode : Memory where
  contents := {
    tables := [("nodes", [(.int 1, Samples.Library.nodeRow 6 "root" .null .null)])]
    sequences := [("nodes", 5)] }

/-- The node with a new one behind it. -/
def joinedNodes : Contents where
  tables := [("nodes", [(.int 1, Samples.Library.nodeRow 6 "root" .null .null),
    (.int 6, Samples.Library.nodeRow 6 "new" .null .null)])]
  sequences := [("nodes", 6)]

def newNode : BatchInput := .given (.list [.object [("name", .text "new")]])

def storeContext : BatchContext where
  verb := .store
  resource := Samples.Library.nodes
  request := {}
  parameters := {}
  requested := []
  force := false
  scopes := []
  attributes := []

/-- The query for the node that was stored. -/
def sixthNode : QuerySpec where
  resource := Samples.Library.nodes
  wheres := [.leaf (Store.leafIn "id" [.int 6])]

/-- Both nodes are found under the key, the older one first. -/
theorem fetchRows_sixthNode :
    joinedNodes.fetchRows treeEndpoint.registry sixthNode none (some 1) =
      .ok [Samples.Library.nodeRow 6 "root" .null .null] := by
  let rows := [Samples.Library.nodeRow 6 "root" .null .null,
    Samples.Library.nodeRow 6 "new" .null .null]
  have selection : Contents.selectRows treeEndpoint.registry joinedNodes sixthNode
      (joinedNodes.table "nodes").rows = .ok rows := by
    with_unfolding_all rfl
  have inOrder : rows.mergeSort (Record.inOrder "id" .ascending) = rows :=
    List.mergeSort_of_pairwise (List.pairwise_pair.mpr rfl)
  have sorting : Record.sortBy "id" .ascending rows = .ok rows := congrArg Except.ok inOrder
  refine Contents.fetchRows_eq_ok.mpr ⟨_, _, _, selection, ?_, sorting, rfl, ?_⟩
  · exact List.forall_mem_cons.mpr ⟨rfl, List.forall_mem_singleton.mpr rfl⟩
  · with_unfolding_all rfl

end Endpoint

end ResourceServer
