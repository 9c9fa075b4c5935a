import ResourceServer.Proofs.Storing

/-!
# Revision of tables

A batch revises the rows of a table one by one: each row that it is about is replaced or taken
away, under its own key.  Where every row is filed under its key, that is the same as revising all
of these rows at once, and no other row is touched.
-/

namespace ResourceServer

/-! ## Records -/

namespace Record

variable {record changes : Record} {name : String} {value : Value}

theorem has_eq_true : record.has name = true ↔ name ∈ record.names := by
  simp [has, names]

theorem has_iff_get? : record.has name = true ↔ ∃ value, record.get? name = some value := by
  rw [has, ← Entries.lookup_isSome, Option.isSome_iff_exists]
  rfl

theorem get_eq_of_get? (held : record.get? name = some value) : record.get name = value := by
  rw [get?] at held
  rw [get, held]
  rfl

theorem get?_eq_of_has (present : record.has name = true) :
    record.get? name = some (record.get name) := by
  obtain ⟨value, held⟩ := has_iff_get?.mp present
  rw [held, get_eq_of_get? held]

theorem names_overwrite :
    (record.map fun entry => if entry.1 == name then (name, value) else entry).map Prod.fst =
      record.names := by
  rw [List.map_map]
  refine List.map_congr_left fun entry _ => ?_
  by_cases same : entry.1 = name
  · simp [same]
  · simp [same]

theorem names_set_of_has (present : record.has name = true) :
    (record.set name value).names = record.names := by
  rw [set, if_pos present]
  exact names_overwrite

theorem nodup_names_set (distinct : record.names.Nodup) : (record.set name value).names.Nodup := by
  unfold set
  split
  · rw [names, names_overwrite]
    exact distinct
  · rename_i absent
    rw [has_eq_true] at absent
    rw [names, List.map_append, List.map_singleton]
    refine List.Nodup.append distinct (List.nodup_singleton _) ?_
    rw [List.disjoint_singleton]
    exact absent

theorem names_merge_of_has (present : ∀ change ∈ changes, record.has change.1 = true) :
    (record.merge changes).names = record.names := by
  unfold merge
  induction changes generalizing record with
  | nil => rfl
  | cons change rest induction =>
      rw [List.forall_mem_cons] at present
      have sameNames : (record.set change.1 change.2).names = record.names :=
        names_set_of_has present.1
      rw [List.foldl_cons, induction, sameNames]
      intro other isOther
      rw [has_eq_true, sameNames, ← has_eq_true]
      exact present.2 other isOther

theorem nodup_names_merge (distinct : record.names.Nodup) : (record.merge changes).names.Nodup := by
  unfold merge
  induction changes generalizing record with
  | nil => exact distinct
  | cons change rest induction => exact induction (nodup_names_set distinct)

/-- Giving a name the value that it has changes nothing. -/
theorem set_self (distinct : record.names.Nodup) (held : record.get? name = some value) :
    record.set name value = record := by
  rw [set, if_pos (has_iff_get?.mpr ⟨value, held⟩)]
  refine (List.map_congr_left fun entry isEntry => ?_).trans (List.map_id _)
  split
  · rename_i same
    rw [beq_iff_eq] at same
    have found := Entries.lookup_of_mem distinct isEntry
    rw [same] at found
    cases held.symm.trans found
    rw [← same]
    rfl
  · rfl

theorem merge_self (distinct : record.names.Nodup)
    (held : ∀ change ∈ changes, record.get? change.1 = some change.2) :
    record.merge changes = record := by
  unfold merge
  induction changes with
  | nil => rfl
  | cons change rest induction =>
      rw [List.forall_mem_cons] at held
      rw [List.foldl_cons, set_self distinct held.1]
      exact induction held.2

theorem set_set (record : Record) (name : String) (first second : Value) :
    (record.set name first).set name second = record.set name second := by
  by_cases present : record.has name = true
  · have stays : (record.set name first).has name = true := has_set_self record name first
    rw [set, if_pos stays, set, if_pos present, set, if_pos present, List.map_map]
    refine List.map_congr_left fun entry _ => ?_
    by_cases same : entry.1 = name
    · simp [same]
    · simp [same]
  · have stays : (record.set name first).has name = true := has_set_self record name first
    have missing : ∀ entry ∈ record, (entry.1 == name) = false := by
      rw [Bool.not_eq_true, has, List.any_eq_false] at present
      exact fun entry isEntry => by simpa using present entry isEntry
    rw [set, if_pos stays, set, if_neg present, set, if_neg present, List.map_append]
    refine congrArg₂ _ ?_ ?_
    · refine (List.map_congr_left fun entry isEntry => ?_).trans (List.map_id _)
      rw [missing entry isEntry]
      rfl
    · simp

/-- What a name has after changes depends on what it had before only. -/
theorem get_merge_congr {other : Record} (same : record.get name = other.get name) :
    (record.merge changes).get name = (other.merge changes).get name := by
  unfold merge
  induction changes generalizing record other with
  | nil => exact same
  | cons change rest induction =>
      refine induction ?_
      rw [get_set, get_set, same]

/-- A name that is changed has the value of one of its changes. -/
theorem exists_of_has_merge (record : Record) (changed : changes.has name = true) :
    ∃ change ∈ changes, change.1 = name ∧ (record.merge changes).get name = change.2 := by
  unfold merge
  induction changes generalizing record with
  | nil => cases changed
  | cons change rest induction =>
      rw [List.foldl_cons]
      by_cases later : has rest name = true
      · obtain ⟨last, isLast, same, value⟩ := induction (record.set change.1 change.2) later
        exact ⟨last, List.mem_cons_of_mem _ isLast, same, value⟩
      · have isName : change.1 = name := by
          rw [has, List.any_cons, Bool.or_eq_true] at changed
          exact eq_of_beq (changed.resolve_right later)
        refine ⟨change, List.mem_cons_self, isName, ?_⟩
        refine (get_merge_other (Bool.eq_false_of_not_eq_true later)).trans ?_
        rw [get_set, if_pos isName.symm]

end Record

/-! ## Tables -/

namespace Table

variable {table : Table} {keyName : String} {key : Value} {change : Record → Option Record}

/-- Puts what a change makes of the row under a key in its place, or takes that row away. -/
def revise (table : Table) (key : Value) (change : Record → Option Record) : Table :=
  table.filterMap fun entry =>
    if entry.1.coincides key then (change entry.2).map (Prod.mk entry.1) else some entry

theorem replace_eq_revise (row : Record) :
    table.replace key row = table.revise key fun _ => some row := by
  rw [replace, revise, ← List.filterMap_eq_map]
  refine List.filterMap_congr fun entry _ => ?_
  rw [Function.comp_apply]
  split
  · rfl
  · rfl

theorem remove_eq_revise : table.remove key = table.revise key fun _ => none := by
  rw [remove, revise, ← List.filterMap_eq_filter]
  refine List.filterMap_congr fun entry _ => ?_
  cases coincide : entry.1.coincides key with
  | false => simp [Option.guard, coincide]
  | true => simp [Option.guard, coincide]

/-- Two rows under keys that are equal to one key are one row. -/
theorem WellFiled.eq_of_coincides (wellFiled : table.WellFiled keyName) (isKey : key.isKey = true)
    {first second : Value × Record} (isFirst : first ∈ table) (isSecond : second ∈ table)
    (firstMeant : first.1.coincides key = true) (secondMeant : second.1.coincides key = true) :
    first = second :=
  wellFiled.entry_eq isFirst isSecond (Value.coincides_of_common
    (Value.isKey_of_coincides isKey firstMeant) (Value.isKey_of_coincides isKey secondMeant) isKey
    firstMeant secondMeant)

theorem WellFiled.find?_eq (wellFiled : table.WellFiled keyName) (isKey : key.isKey = true)
    {entry : Value × Record} (isEntry : entry ∈ table) (meant : entry.1.coincides key = true) :
    table.find? key = some entry.2 := by
  have present : (List.find? (fun entry => entry.1.coincides key) table).isSome = true :=
    List.find?_isSome.mpr ⟨entry, isEntry, meant⟩
  obtain ⟨other, found⟩ := Option.isSome_iff_exists.mp present
  have otherMeant : other.1.coincides key = true :=
    List.find?_some (p := fun entry : Value × Record => entry.1.coincides key) found
  rw [find?, found, wellFiled.eq_of_coincides isKey (List.mem_of_find?_eq_some found) isEntry
    otherMeant meant]
  rfl

/-- One row at most is under keys that are equal to one key. -/
theorem WellFiled.filter_eq (wellFiled : table.WellFiled keyName) (isKey : key.isKey = true)
    {entry : Value × Record} (isEntry : entry ∈ table) (meant : entry.1.coincides key = true) :
    table.filter (fun entry => entry.1.coincides key) = [entry] := by
  have onlyOne : ∀ other ∈ table.filter (fun entry => entry.1.coincides key), other = entry := by
    intro other isOther
    obtain ⟨inTable, otherMeant⟩ := List.mem_filter.mp isOther
    exact wellFiled.eq_of_coincides isKey inTable isEntry otherMeant meant
  have found : entry ∈ table.filter (fun entry => entry.1.coincides key) :=
    List.mem_filter.mpr ⟨isEntry, meant⟩
  have apart := wellFiled.distinct.filter fun entry => entry.1.coincides key
  have entryKey := Value.isKey_of_coincides isKey meant
  have self := Value.coincides_of_common entryKey entryKey isKey meant meant
  revert onlyOne found apart
  generalize table.filter (fun entry => entry.1.coincides key) = hits
  intro onlyOne found apart
  match hits, found with
  | [single], _ => rw [onlyOne single (List.mem_singleton_self single)]
  | first :: second :: rest, _ =>
      have firstIs := onlyOne first List.mem_cons_self
      have secondIs := onlyOne second (List.mem_cons_of_mem _ List.mem_cons_self)
      have different := (List.pairwise_cons.mp apart).1 second List.mem_cons_self
      rw [firstIs, secondIs, self] at different
      cases different.1

theorem Keyed.revise (keyed : table.Keyed keyName)
    (kept : ∀ entry ∈ table, entry.1.coincides key = true → ∀ row, change entry.2 = some row →
      row.get keyName = entry.1 ∧ row.has keyName = true) :
    (table.revise key change).Keyed keyName := by
  have source : ∀ entry ∈ table.revise key change,
      entry.2.get keyName = entry.1 ∧ Record.has entry.2 keyName = true := by
    intro entry isEntry
    obtain ⟨old, isOld, made⟩ := List.mem_filterMap.mp isEntry
    split at made
    · rename_i meant
      obtain ⟨row, changed, rfl⟩ := Option.map_eq_some_iff.mp made
      exact kept old isOld meant row changed
    · cases made
      exact ⟨keyed.filed entry isOld, keyed.complete entry isOld⟩
  refine ⟨⟨fun entry isEntry => (source entry isEntry).1, ?_⟩,
    fun entry isEntry => (source entry isEntry).2⟩
  have sameKey : ∀ old entry : Value × Record,
      entry ∈ (if old.1.coincides key then (change old.2).map (Prod.mk old.1) else some old) →
        entry.1 = old.1 := by
    intro old entry made
    split at made
    · obtain ⟨row, _, rfl⟩ := Option.map_eq_some_iff.mp (Option.mem_def.mp made)
      rfl
    · cases made
      rfl
  refine keyed.distinct.filterMap _ fun first second apart one isOne two isTwo => ?_
  rw [sameKey first one isOne, sameKey second two isTwo]
  exact apart

theorem Keyed.revise_entry (keyed : table.Keyed keyName) {entry : Value × Record}
    (isEntry : entry ∈ table) {changed : Option Record}
    (kept : ∀ row, changed = some row →
      row.get keyName = entry.1 ∧ row.has keyName = true) :
    (table.revise entry.1 fun _ => changed).Keyed keyName := by
  refine keyed.revise fun old isOld meant row written => ?_
  rw [keyed.entry_eq isOld isEntry meant]
  exact kept row written

theorem mem_revise (meant : key.coincides key = true) {row changed : Record}
    (isEntry : (key, row) ∈ table) (written : change row = some changed) :
    (key, changed) ∈ table.revise key change := by
  refine List.mem_filterMap.mpr ⟨(key, row), isEntry, ?_⟩
  rw [if_pos meant, written]
  rfl

theorem mem_revise_of_apart {other : Value × Record} (isOther : other ∈ table)
    (apart : other.1.coincides key = false) : other ∈ table.revise key change := by
  refine List.mem_filterMap.mpr ⟨other, isOther, ?_⟩
  rw [apart, if_neg Bool.false_ne_true]

/-- Keys of which no two are equal. -/
def Apart (entries : List (Value × Record)) : Prop :=
  entries.Pairwise fun left right =>
    left.1.coincides right.1 = false ∧ right.1.coincides left.1 = false

/-- To revise rows one after another is to revise them all at once. -/
theorem Keyed.foldl_revise {targets : List (Value × Record)} (keyed : table.Keyed keyName)
    (included : targets ⊆ table) (apart : Apart targets) {change : Value × Record → Option Record}
    (kept : ∀ target ∈ targets, ∀ row, change target = some row →
      row.get keyName = target.1 ∧ row.has keyName = true) :
    targets.foldl (fun table target => table.revise target.1 fun _ => change target) table =
      table.filterMap fun entry =>
        if targets.any (fun target => entry.1.coincides target.1) then
          (change entry).map (Prod.mk entry.1)
        else some entry := by
  induction targets generalizing table with
  | nil =>
      simp only [List.foldl_nil, List.any_nil, Bool.false_eq_true, if_false]
      exact (List.filterMap_some).symm
  | cons target rest induction =>
      rw [List.cons_subset] at included
      rw [Apart, List.pairwise_cons] at apart
      rw [List.forall_mem_cons] at kept
      have meantOnly : ∀ entry ∈ table, entry.1.coincides target.1 = true → entry = target :=
        fun entry isEntry => keyed.entry_eq isEntry included.1
      have keyedAfter : (table.revise target.1 fun _ => change target).Keyed keyName :=
        keyed.revise_entry included.1 kept.1
      have stays : rest ⊆ table.revise target.1 fun _ => change target :=
        fun other isOther => mem_revise_of_apart (included.2 isOther) (apart.1 other isOther).2
      rw [List.foldl_cons, induction keyedAfter stays apart.2 kept.2, Table.revise,
        List.filterMap_filterMap]
      refine List.filterMap_congr fun entry isEntry => ?_
      rw [List.any_cons]
      by_cases meant : entry.1.coincides target.1 = true
      · -- The row of this target is revised now, and by no later one.
        obtain rfl := meantOnly entry isEntry meant
        have notLater : rest.any (fun other => entry.1.coincides other.1) = false := by
          rw [List.any_eq_false]
          exact fun other isOther => by simp [(apart.1 other isOther).1]
        rw [if_pos meant, meant, Bool.true_or, if_pos rfl]
        cases change entry with
        | none => rfl
        | some row =>
            rw [Option.map_some, Option.bind_some, notLater, if_neg Bool.false_ne_true]
      · rw [if_neg meant, Option.bind_some, Bool.eq_false_of_not_eq_true meant, Bool.false_or]

end Table

/-! ## Contents -/

namespace Contents

theorem putEntry_putEntry {α : Type} (name : String) (first second : α)
    (entries : List (String × α)) :
    putEntry name second (putEntry name first entries) = putEntry name second entries := by
  induction entries with
  | nil => simp [putEntry]
  | cons entry rest induction =>
      by_cases same : entry.1 = name
      · simp [putEntry, same]
      · simp [putEntry, same, induction]

theorem putEntry_self {α : Type} {name : String} {value : α} {entries : List (String × α)}
    (found : entries.lookup name = some value) : putEntry name value entries = entries := by
  induction entries with
  | nil => cases found
  | cons entry rest induction =>
      obtain ⟨first, other⟩ := entry
      rw [Entries.lookup_cons] at found
      by_cases same : name = first
      · rw [if_pos same] at found
        cases found
        simp [putEntry, same]
      · rw [if_neg same] at found
        simp [putEntry, Ne.symm same, induction found]

/-- Two contents differ in the rows of one resource at most, and not at all where there are none
to begin with. -/
def DiffersAt (name : String) (before after : Contents) : Prop :=
  after = before ∨ before.table name ≠ [] ∧ ∃ table, after = before.withTable name table

namespace DiffersAt

variable {name : String} {before after : Contents}

instance : Std.Refl (DiffersAt name) := ⟨fun _ => .inl rfl⟩

theorem withTable (filled : before.table name ≠ []) (table : Table) :
    DiffersAt name before (before.withTable name table) :=
  .inr ⟨filled, table, rfl⟩

instance : IsTrans Contents (DiffersAt name) where
  trans before middle after first second := by
    obtain rfl | ⟨filled, table, rfl⟩ := first
    · exact second
    · obtain rfl | ⟨_, other, rfl⟩ := second
      · exact withTable filled table
      · refine .inr ⟨filled, other, ?_⟩
        unfold Contents.withTable
        rw [putEntry_putEntry]

theorem others (differs : DiffersAt name before after) {other : String} (different : other ≠ name) :
    after.table other = before.table other := by
  obtain rfl | ⟨_, table, rfl⟩ := differs
  · rfl
  · exact table_withTable_other different before table

theorem sequences (differs : DiffersAt name before after) : after.sequences = before.sequences := by
  obtain rfl | ⟨_, table, rfl⟩ := differs
  · rfl
  · rfl

/-- Contents with the same rows of the one resource are the same. -/
theorem eq_of_table (differs : DiffersAt name before after)
    (sameRows : after.table name = before.table name) : after = before := by
  obtain rfl | ⟨filled, table, rfl⟩ := differs
  · rfl
  · rw [table_withTable] at sameRows
    subst sameRows
    cases found : before.tables.lookup name with
    | none =>
        rw [Contents.table, found] at filled
        exact absurd rfl filled
    | some table =>
        have isTable : before.table name = table := by
          rw [Contents.table, found]
          rfl
        unfold Contents.withTable
        rw [isTable, putEntry_self found]

end DiffersAt

end Contents

end ResourceServer
