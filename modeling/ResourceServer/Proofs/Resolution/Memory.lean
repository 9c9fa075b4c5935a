import ResourceServer.Proofs.Memory.History
import ResourceServer.Proofs.Resolution.Loading

/-!
# Looking names up in memory

In memory, only the counts of a specification and its key are looked up by name; a column that a
row does not have is null.  Rows have a key because they are made by inserts, which give them one,
and nothing takes it away.
-/

namespace ResourceServer

/-! ## Evaluating -/

namespace Filter

theorem Leaf.evaluateMembership_resolved (leaf : Leaf) (field : Value) :
    Resolved (leaf.evaluateMembership field) := by
  unfold evaluateMembership
  split
  · exact .ok _
  · split
    · exact .ok _
    · exact .ok _
  · exact .error rfl

theorem Leaf.evaluate_resolved (leaf : Leaf) (row : Record) : Resolved (leaf.evaluate row) := by
  unfold evaluate
  dsimp only
  split
  · exact .ok _
  · exact .ok _
  · exact leaf.evaluateMembership_resolved _
  · exact leaf.evaluateMembership_resolved _
  · split
    · exact .ok _
    · split
      · exact .ok _
      · exact .ok _
      · split
        · exact .ok _
        · exact .ok _
      · exact .error rfl
      · exact .ok _

namespace Node

mutual

/-- A filter takes a field that is not there for null. -/
theorem evaluate_resolved (row : Record) (node : Node) : Resolved (evaluate row node) := by
  cases node with
  | leaf comparison => exact comparison.evaluate_resolved row
  | group combinator children =>
      cases children with
      | nil => exact .ok _
      | cons first rest =>
          rw [evaluate]
          exact .bind (evaluate_resolved row first) fun holds _ =>
            evaluateRest_resolved row holds rest

theorem evaluateRest_resolved (row : Record) (holds : Bool) (nodes : List Node) :
    Resolved (evaluateRest row holds nodes) := by
  cases nodes with
  | nil => exact .ok _
  | cons node rest =>
      have goesOn : Resolved (evaluate row node >>= fun next => evaluateRest row next rest) :=
        .bind (evaluate_resolved row node) fun next _ => evaluateRest_resolved row next rest
      rw [evaluateRest]
      split
      · split
        · exact .ok _
        · exact goesOn
      · split
        · exact goesOn
        · exact evaluateRest_resolved row false rest

end

end Node

theorem evaluateAll_resolved (row : Record) (nodes : List Node) :
    Resolved (evaluateAll row nodes) := by
  induction nodes with
  | nil => exact .ok _
  | cons node rest induction =>
      rw [evaluateAll]
      refine .bind (node.evaluate_resolved row) fun holds _ => ?_
      split
      · exact induction
      · exact .ok _

end Filter

namespace Record

theorem has_set_iff {row : Record} {name other : String} {value : Value} :
    (row.set name value).has other = true ↔ other = name ∨ row.has other = true := by
  rw [has, has, ← Entries.lookup_isSome, ← Entries.lookup_isSome]
  unfold set has
  rw [Entries.lookup_set]
  split
  · rename_i same
    simp [same]
  · rename_i different
    simp [different]

theorem has_merge {row changes : Record} {name : String} (has : row.has name = true) :
    (row.merge changes).has name = true := by
  unfold merge
  induction changes generalizing row with
  | nil => exact has
  | cons change rest induction => exact induction (has_set_iff.mpr (.inr has))

theorem sortBy_resolved (field : String) (direction : SortDirection) (rows : List Record) :
    Resolved (sortBy field direction rows) := by
  unfold sortBy
  split
  · exact .error rfl
  · split
    · exact .ok _
    · exact .ok _

end Record

/-! ## Reading -/

namespace Contents

variable {registry : Registry} {contents : Contents} {spec : QuerySpec}

theorem rowMatches_resolved (spec : QuerySpec) (row : Record) : Resolved (rowMatches spec row) := by
  unfold rowMatches
  split
  · exact .bind (Filter.evaluateAll_resolved row spec.wheres) fun _ _ => .ok _
  · exact .ok _

theorem relatedCount_resolved {owner : Resource} {name : String} {columns : List String}
    (joins : registry.Joins owner name columns) (contents : Contents) (row : Record) :
    Resolved (relatedCount registry contents owner name row) := by
  obtain ⟨relation, target, declared, known, _⟩ := joins
  unfold relatedCount
  refine .bind (declared ▸ .ok _) fun found isFound => ?_
  obtain rfl : relation = found := Except.ok.inj (declared.symm.trans isFound)
  refine .bind (known ▸ .ok _) fun other _ => ?_
  generalize relation.joiningFields owner other = fields
  obtain ⟨ownerField, targetField⟩ := fields
  dsimp only
  split
  · exact .ok _
  · exact .ok _

theorem withCounts_resolved (executable : spec.Executable registry) (contents : Contents)
    (row : Record) : Resolved (withCounts registry contents spec row) :=
  .foldlM (fun aggregate member _ =>
    .bind (relatedCount_resolved (executable.aggregates aggregate member) contents row)
      fun _ _ => .ok _) row

/-- Counts are added to a row; it keeps what it has. -/
theorem has_withCounts {row counted : Record} {name : String}
    (done : withCounts registry contents spec row = .ok counted) (has : row.has name = true) :
    counted.has name = true := by
  unfold withCounts at done
  have general : ∀ aggregates : List AggregateRequest, ∀ result : Record,
      aggregates.foldlM (fun result aggregate => do
        let count ← relatedCount registry contents spec.resource aggregate.relation row
        .ok (Record.set result aggregate.alias (.int count))) result = .ok counted →
      result.has name = true → counted.has name = true := by
    intro aggregates
    induction aggregates with
    | nil =>
        intro result done has
        cases done
        exact has
    | cons aggregate rest induction =>
        intro result done has
        rw [List.foldlM_cons, bind_eq_ok] at done
        obtain ⟨next, counts, done⟩ := done
        obtain ⟨count, _, counts⟩ := bind_eq_ok.mp counts
        cases counts
        exact induction _ done (Record.has_set_iff.mpr (.inr has))
  exact general spec.aggregates row done has

theorem selectRows_resolved (executable : spec.Executable registry) (contents : Contents)
    (rows : List Record) : Resolved (selectRows registry contents spec rows) := by
  induction rows with
  | nil => exact .ok _
  | cons row rest induction =>
      rw [selectRows]
      refine .bind (rowMatches_resolved spec row) fun holds _ => ?_
      split
      · refine .bind (withCounts_resolved executable contents row) fun _ _ => ?_
        exact .bind induction fun _ _ => .ok _
      · exact induction

theorem countRows_resolved (spec : QuerySpec) (rows : List Record) :
    Resolved (countRows spec rows) := by
  induction rows with
  | nil => exact .ok _
  | cons row rest induction =>
      rw [countRows]
      exact .bind (rowMatches_resolved spec row) fun _ _ => .bind induction fun _ _ => .ok _

/-- The rows of every resource have its key. -/
def Keyed (registry : Registry) (contents : Contents) : Prop :=
  ∀ resource ∈ registry.resources, ∀ row ∈ (contents.table resource.name).rows,
    row.has resource.keyName = true

theorem fetchRows_resolved (executable : spec.Executable registry) (keyed : contents.Keyed registry)
    (offset limit : Option Int) : Resolved (contents.fetchRows registry spec offset limit) := by
  refine .bind (selectRows_resolved executable contents _) fun rows selected => ?_
  have allKeyed : ¬ rows.any (fun row => !Record.has row spec.resource.keyName) = true := by
    rw [List.any_eq_true]
    rintro ⟨result, member, lacks⟩
    obtain ⟨row, inTable, _, counts⟩ := mem_selectRows selected member
    have has := has_withCounts counts (keyed spec.resource executable.registered row inTable)
    rw [has] at lacks
    cases lacks
  rw [if_neg allKeyed]
  refine .bind (Record.sortBy_resolved _ _ _) fun byKey _ => ?_
  refine .bind (.foldlM (fun directive _ rows => Record.sortBy_resolved _ _ rows) _) fun _ _ => ?_
  exact .ok _

end Contents

/-- A store in memory whose rows have keys resolves the names of executable specifications. -/
theorem Memory.resolving {registry : Registry} (valid : registry.validate = .ok ()) :
    Store.Resolving Memory registry fun memory => memory.contents.Keyed registry where
  fetches spec executable offset limit memory keyed := by
    refine ⟨Contents.fetchRows_resolved executable keyed offset limit, keyed, ?_⟩
    intro rows fetched result member
    obtain ⟨_, _, _, counted, _, rfl⟩ := Contents.fetchRows_selects fetched result member
    rw [Record.has_project, Contents.resultNames, mem_distinctNames]
    exact List.mem_append_left _ (executable.selects_key valid)
  counts spec _ memory keyed :=
    ⟨.map (Contents.countRows_resolved spec _) _, keyed, fun _ _ => trivial⟩

/-! ## Writing -/

/-- What a call writes: the contents before and after an insert, a change or a removal that was not
refused. -/
def StoreCall.Writes (before after : Contents) : StoreCall → Prop
  | .insert resource values => ∃ key, before.insert resource values = .ok (key, after)
  | .update resource key changes => ∃ count, before.update resource key changes = .ok (count, after)
  | .delete resource key => ∃ count, before.delete resource key = .ok (count, after)
  | .softDelete now resource key => ∃ count,
      before.update resource key [(resource.deletedAtColumn, .moment now)] = .ok (count, after)
  | .restore resource key => ∃ count,
      before.update resource key [(resource.deletedAtColumn, .null)] = .ok (count, after)
  | _ => False

namespace Memory

/-- The contents have a property, and so have those that an open transaction goes back to. -/
def Keeps (property : Contents → Prop) (memory : Memory) : Prop :=
  property memory.contents ∧ ∀ contents, memory.snapshot = some contents → property contents

variable {property : Contents → Prop} {memory : Memory}

/-- What every write of a call keeps, the call keeps. -/
theorem Keeps.action {call : StoreCall} (keeps : memory.Keeps property)
    (kept : ∀ before after, call.Writes before after → property before → property after) :
    (call.action.perform memory).2.Keeps property := by
  have effect := call.effect memory
  generalize call.action.perform memory = outcome at effect ⊢
  cases effect with
  | failed | got | counted => exact keeps
  | inserted done | updated done | deleted done | trashed _ done | restored _ done =>
      exact ⟨kept _ _ ⟨_, done⟩ keeps.1, keeps.2⟩
  | begun closed =>
      refine ⟨keeps.1, fun _ isSnapshot => ?_⟩
      cases isSnapshot
      exact keeps.1
  | committed active => exact ⟨keeps.1, nofun⟩
  | rolledBack saved => exact ⟨keeps.2 _ saved, nofun⟩

theorem Keeps.run {calls : List StoreCall} (keeps : memory.Keeps property)
    (kept : ∀ call ∈ calls, ∀ before after, call.Writes before after →
      property before → property after) :
    (StoreCall.after calls memory).Keeps property := by
  induction calls generalizing memory with
  | nil => exact keeps
  | cons call rest induction =>
      rw [List.forall_mem_cons] at kept
      exact induction (keeps.action kept.1) kept.2

end Memory

/-- A call inserts into a resource as it is registered, if it inserts at all. -/
def StoreCall.InsertsInto (registry : Registry) : StoreCall → Prop
  | .insert resource _ => resource ∈ registry.resources
  | _ => True

namespace Contents

variable {registry : Registry} {before after : Contents} {resource : Resource} {key : Value}

theorem Keyed.withTable {name : String} {table : Table} (keyed : before.Keyed registry)
    (rows : ∀ resource ∈ registry.resources, resource.name = name →
      ∀ row ∈ table.rows, row.has resource.keyName = true) :
    (before.withTable name table).Keyed registry := by
  intro resource registered row member
  by_cases same : resource.name = name
  · rw [same, table_withTable] at member
    exact rows resource registered same row member
  · rw [table_withTable_other same] at member
    exact keyed resource registered row member

theorem Keyed.update {changes : Record} {count : Int} (keyed : before.Keyed registry)
    (done : before.update resource key changes = .ok (count, after)) : after.Keyed registry := by
  obtain rfl | ⟨row, found, _, _, rfl⟩ := update_eq_ok done
  · exact keyed
  · refine keyed.withTable fun other registered same => ?_
    have tableKeyed := keyed other registered
    rw [same] at tableKeyed
    intro result member
    obtain ⟨entry, isEntry, rfl⟩ := List.mem_map.mp member
    obtain ⟨old, isOld, rfl⟩ := List.mem_map.mp isEntry
    split
    · obtain ⟨held, isHeld, rfl⟩ := Option.map_eq_some_iff.mp found
      exact Record.has_merge
        (tableKeyed held.2 (List.mem_map_of_mem (List.mem_of_find?_eq_some isHeld)))
    · exact tableKeyed old.2 (List.mem_map_of_mem isOld)

theorem Keyed.delete {count : Int} (keyed : before.Keyed registry)
    (done : before.delete resource key = .ok (count, after)) : after.Keyed registry := by
  obtain rfl | rfl := delete_eq_ok done
  · exact keyed
  · refine keyed.withTable fun other registered same row member => ?_
    obtain ⟨entry, isKept, rfl⟩ := List.mem_map.mp member
    have tableKeyed := keyed other registered
    rw [same] at tableKeyed
    exact tableKeyed entry.2 (List.mem_map_of_mem (List.mem_of_mem_filter isKept))

theorem Keyed.insert {values : Record} (distinct : registry.names.Nodup)
    (registered : resource ∈ registry.resources) (keyed : before.Keyed registry)
    (done : before.insert resource values = .ok (key, after)) : after.Keyed registry := by
  obtain ⟨_, _, _, _, rfl⟩ := insert_eq_ok done
  have written : (before.withTable resource.name ((before.table resource.name) ++
      [(key, (resource.model.rowOf values).set resource.keyName key)])).Keyed registry := by
    refine keyed.withTable fun other isOther same => ?_
    obtain rfl : other = resource := List.inj_on_of_nodup_map distinct isOther registered same
    intro row member
    obtain ⟨entry, isEntry, rfl⟩ := List.mem_map.mp member
    cases List.mem_append.mp isEntry with
    | inl isOld => exact keyed other registered entry.2 (List.mem_map_of_mem isOld)
    | inr isNew =>
        rw [List.mem_singleton.mp isNew]
        exact Record.has_set_iff.mpr (.inl rfl)
  intro other isOther row member
  rw [table_withKey] at member
  exact written other isOther row member

theorem Keyed.writes {call : StoreCall} (distinct : registry.names.Nodup)
    (inserts : call.InsertsInto registry) (writes : call.Writes before after)
    (keyed : before.Keyed registry) : after.Keyed registry := by
  cases call with
  | insert resource values =>
      obtain ⟨key, done⟩ := writes
      exact keyed.insert distinct inserts done
  | update resource key changes =>
      obtain ⟨count, done⟩ := writes
      exact keyed.update done
  | delete resource key =>
      obtain ⟨count, done⟩ := writes
      exact keyed.delete done
  | softDelete now resource key =>
      obtain ⟨count, done⟩ := writes
      exact keyed.update done
  | restore resource key =>
      obtain ⟨count, done⟩ := writes
      exact keyed.update done
  | begin | commit | rollback | get _ _ | count _ _ => cases writes

end Contents

/-- After any calls on an empty store that insert into registered resources, rows have keys. -/
theorem Memory.run_keyed {registry : Registry} (distinct : registry.names.Nodup)
    {calls : List StoreCall} (inserts : ∀ call ∈ calls, call.InsertsInto registry) :
    (StoreCall.after calls ({} : Memory)).contents.Keyed registry := by
  have empty : ({} : Memory).Keeps (Contents.Keyed registry) := by
    refine ⟨?_, nofun⟩
    intro resource _ row member
    cases member
  exact (empty.run fun call member before after writes =>
    Contents.Keyed.writes distinct (inserts call member) writes).1

end ResourceServer
