import Mathlib.Data.List.Pairwise
import ResourceServer.Memory
import ResourceServer.Proofs.Action

/-!
# Changes of the contents

A write touches the rows of one resource that are filed under keys equal to the one it is
given, and nothing else.  `ChangesOnly` says so for any number of writes under allowed keys,
and `WellFiled` is what ties the key of a row to the row itself.
-/

namespace ResourceServer

namespace Table

variable {table : Table} {key : Value} {allowed : Value → Bool}

theorem map_fst_replace (row : Record) :
    (table.replace key row).map Prod.fst = table.map Prod.fst := by
  rw [replace, List.map_map]
  refine List.map_congr_left ?_
  intro entry _
  simp only [Function.comp_apply]
  split
  · rfl
  · rfl

/-- Rows under keys that are not allowed stay when a row is replaced under an allowed one. -/
theorem filter_replace
    (permitted : ∀ other : Value, other.coincides key = true → allowed other = true)
    (row : Record) :
    (table.replace key row).filter (fun entry => !allowed entry.1) =
      table.filter fun entry => !allowed entry.1 := by
  induction table with
  | nil => rfl
  | cons entry rest induction =>
      have later : List.filter (fun entry => !allowed entry.1) (replace rest key row) = _ :=
        induction
      rw [replace, List.map_cons, ← replace]
      by_cases same : entry.1.coincides key = true
      · simp [same, permitted entry.1 same, later]
      · simp [same, List.filter_cons, later]

theorem filter_remove
    (permitted : ∀ other : Value, other.coincides key = true → allowed other = true) :
    (table.remove key).filter (fun entry => !allowed entry.1) =
      table.filter fun entry => !allowed entry.1 := by
  rw [remove, List.filter_filter]
  refine List.filter_congr ?_
  intro entry _
  by_cases same : entry.1.coincides key = true
  · simp [same, permitted entry.1 same]
  · simp [same]

/-- Every row is filed under the value of its key column, and no two keys are equal. -/
structure WellFiled (keyName : String) (table : Table) : Prop where
  filed : ∀ entry ∈ table, entry.2.get keyName = entry.1
  distinct : table.Pairwise fun left right =>
    left.1.coincides right.1 = false ∧ right.1.coincides left.1 = false

/-- In a table with different keys, a key that equals another one is that key. -/
theorem WellFiled.entry_eq {keyName : String} (wellFiled : table.WellFiled keyName)
    {first second : Value × Record} (firstMember : first ∈ table) (secondMember : second ∈ table)
    (same : first.1.coincides second.1 = true) : first = second := by
  by_contra different
  have symmetric : Std.Symm fun left right : Value × Record =>
      left.1.coincides right.1 = false ∧ right.1.coincides left.1 = false :=
    ⟨fun _ _ both => ⟨both.2, both.1⟩⟩
  have apart := (wellFiled.distinct.forall firstMember secondMember different).1
  rw [same] at apart
  cases apart

end Table

namespace Contents

variable {α : Type}

theorem lookup_putEntry (name other : String) (value : α) (entries : List (String × α)) :
    (putEntry name value entries).lookup other =
      if other = name then some value else entries.lookup other := by
  induction entries with
  | nil =>
      by_cases same : other = name
      · simp [putEntry, same]
      · simp [putEntry, same, List.lookup_cons, beq_eq_false_iff_ne.mpr same]
  | cons entry rest induction =>
      obtain ⟨first, old⟩ := entry
      by_cases here : first = name
      · subst here
        by_cases same : other = first
        · simp [putEntry, same]
        · simp [putEntry, same, List.lookup_cons, beq_eq_false_iff_ne.mpr same]
      · by_cases found : other = first
        · subst found
          simp [putEntry, here]
        · simp [putEntry, here, List.lookup_cons, beq_eq_false_iff_ne.mpr found, induction]

@[simp] theorem table_withTable (contents : Contents) (name : String) (table : Table) :
    (contents.withTable name table).table name = table := by
  simp [Contents.table, withTable, lookup_putEntry]

theorem table_withTable_other {name other : String} (different : other ≠ name)
    (contents : Contents) (table : Table) :
    (contents.withTable name table).table other = contents.table other := by
  simp [Contents.table, withTable, lookup_putEntry, different]

/-- Rows are changed or removed only in the table of one name and only under allowed keys. -/
structure ChangesOnly (name : String) (allowed : Value → Bool) (before after : Contents) :
    Prop where
  others : ∀ other, other ≠ name → after.table other = before.table other
  sequences : after.sequences = before.sequences
  keys : ((after.table name).map Prod.fst).Sublist ((before.table name).map Prod.fst)
  untouched : (after.table name).filter (fun entry => !allowed entry.1) =
    (before.table name).filter fun entry => !allowed entry.1

variable {name : String} {allowed : Value → Bool}

instance : Std.Refl (ChangesOnly name allowed) where
  refl _ := ⟨fun _ _ => rfl, rfl, List.Sublist.refl _, rfl⟩

instance : IsTrans Contents (ChangesOnly name allowed) where
  trans _ _ _ first second := {
    others := fun other different =>
      (second.others other different).trans (first.others other different)
    sequences := second.sequences.trans first.sequences
    keys := second.keys.trans first.keys
    untouched := second.untouched.trans first.untouched }

theorem ChangesOnly.mem_iff {before after : Contents} {entry : Value × Record}
    (changes : ChangesOnly name allowed before after) (forbidden : allowed entry.1 = false) :
    entry ∈ after.table name ↔ entry ∈ before.table name := by
  have same : entry ∈ (after.table name).filter (fun entry => !allowed entry.1) ↔
      entry ∈ (before.table name).filter fun entry => !allowed entry.1 := by
    rw [changes.untouched]
  simpa [List.mem_filter, forbidden] using same

theorem withTable_changesOnly {contents : Contents} {table : Table}
    (keys : (table.map Prod.fst).Sublist ((contents.table name).map Prod.fst))
    (untouched : table.filter (fun entry => !allowed entry.1) =
      (contents.table name).filter fun entry => !allowed entry.1) :
    ChangesOnly name allowed contents (contents.withTable name table) where
  others _ different := table_withTable_other different contents table
  sequences := rfl
  keys := by rwa [table_withTable]
  untouched := by rwa [table_withTable]

theorem update_changesOnly {contents after : Contents} {resource : Resource} {key : Value}
    {changes : Record} {count : Int}
    (permitted : ∀ other : Value, other.coincides key = true → allowed other = true)
    (done : contents.update resource key changes = .ok (count, after)) :
    ChangesOnly resource.name allowed contents after := by
  unfold update at done
  simp only at done
  split at done
  · cases done
    exact Std.Refl.refl contents
  · split at done
    · cases done
    · split at done
      · cases done
        exact Std.Refl.refl contents
      · obtain ⟨_, _, done⟩ := bind_eq_ok.mp done
        cases done
        refine withTable_changesOnly ?_ ?_
        · simp only [Table.map_fst_replace, List.Sublist.refl]
        · exact Table.filter_replace permitted _

theorem delete_changesOnly {contents after : Contents} {resource : Resource} {key : Value}
    {count : Int}
    (permitted : ∀ other : Value, other.coincides key = true → allowed other = true)
    (done : contents.delete resource key = .ok (count, after)) :
    ChangesOnly resource.name allowed contents after := by
  unfold delete at done
  simp only at done
  split at done
  · cases done
  · split at done
    · cases done
      refine withTable_changesOnly ?_ ?_
      · exact List.filter_sublist.map Prod.fst
      · exact Table.filter_remove permitted
    · cases done
      exact Std.Refl.refl contents

end Contents

end ResourceServer
