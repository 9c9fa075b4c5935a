import ResourceServer.Proofs.Memory.Keys
import ResourceServer.Proofs.Memory.Narrowing

/-!
# Integrity of the contents

A table is as it should be when its keys are different, no two rows repeat each other in
columns that are unique, and every row is filed under the value of its key column.  Adding,
changing and removing rows keep the contents so: a row is checked before it is written, and
a whole number that is used as a key counts towards the sequence of its resource.
-/

namespace ResourceServer

namespace Model

/-- Whether the values of some columns may not repeat: they are a unique set, or one unique
column. -/
def DemandsUnique (model : Model) (columns : List String) : Prop :=
  columns ∈ model.uniqueSets ∨
    ∃ column ∈ model.columns, column.isUnique = true ∧ columns = [column.name]

theorem mem_foldl_addSet {sets others : List (List String)} {columns : List String} :
    columns ∈ others.foldl (fun sets set => if sets.contains set then sets else sets ++ [set])
        sets ↔ columns ∈ sets ∨ columns ∈ others := by
  induction others generalizing sets with
  | nil => simp
  | cons set rest induction =>
      rw [List.foldl_cons, induction]
      split
      · rename_i present
        rw [List.contains_iff_mem] at present
        rw [List.mem_cons]
        constructor
        · rintro (known | later)
          · exact .inl known
          · exact .inr (.inr later)
        · rintro (known | rfl | later)
          · exact .inl known
          · exact .inl present
          · exact .inr later
      · rw [List.mem_append, List.mem_singleton, List.mem_cons, or_assoc]

theorem mem_uniqueColumnSets {model : Model} {columns : List String} :
    columns ∈ model.uniqueColumnSets ↔ model.DemandsUnique columns := by
  rw [uniqueColumnSets, (List.mergeSort_perm _ _).mem_iff, mem_foldl_addSet, List.mem_map]
  refine or_congr_right ⟨?_, ?_⟩
  · rintro ⟨column, member, rfl⟩
    rw [List.mem_filter] at member
    exact ⟨column, member.1, member.2, rfl⟩
  · rintro ⟨column, member, isUnique, rfl⟩
    exact ⟨column, List.mem_filter.mpr ⟨member, isUnique⟩, rfl⟩

end Model

/-- Two rows have equal values in all of some columns, and none of them is null.  The values
are equal from either side: an object in which a name occurs twice may be found in another one
and not the other way round. -/
def Record.Repeats (columns : List String) (left right : Record) : Prop :=
  ∀ name ∈ columns, left.get name ≠ .null ∧ right.get name ≠ .null ∧
    (left.get name).coincides (right.get name) = true ∧
    (right.get name).coincides (left.get name) = true

theorem Record.Repeats.symm {columns : List String} {left right : Record}
    (repeats : left.Repeats columns right) : right.Repeats columns left := by
  intro name member
  obtain ⟨leftGiven, rightGiven, forth, back⟩ := repeats name member
  exact ⟨rightGiven, leftGiven, back, forth⟩

/-- Whether trashing a row writes to its key column. -/
def Resource.marksKey (resource : Resource) : Bool :=
  resource.softDeletes && resource.deletedAtColumn == resource.keyName

namespace Record

theorem get_merge_other {row changes : Record} {name : String}
    (unchanged : changes.has name = false) : (row.merge changes).get name = row.get name := by
  rw [merge]
  induction changes generalizing row with
  | nil => rfl
  | cons change rest induction =>
      rw [has, List.any_cons, Bool.or_eq_false_iff] at unchanged
      rw [List.foldl_cons, induction unchanged.2, get_set, if_neg]
      rintro rfl
      exact absurd unchanged.1 (by simp)

end Record

/-! ## Tables -/

namespace Table

variable {resource : Resource} {table : Table} {key : Value} {row : Record}

/-- The keys of a table are different, rows do not repeat each other where they may not, and
every row is filed under the value of its key column, unless trashing it writes there. -/
structure Intact (resource : Resource) (table : Table) : Prop where
  keys : ∀ entry ∈ table, entry.1.isKey = true
  distinct : table.Pairwise fun left right => left.1.coincides right.1 = false
  unique : table.Pairwise fun left right =>
    ∀ columns, resource.model.DemandsUnique columns → ¬left.2.Repeats columns right.2
  filed : resource.marksKey = false → ∀ entry ∈ table, entry.2.get resource.keyName = entry.1

theorem intact_nil : Intact resource [] where
  keys _ member := by cases member
  distinct := .nil
  unique := .nil
  filed _ _ member := by cases member

/-- A row that passes the check repeats no row under another key. -/
theorem not_repeats_of_checkUnique
    (checked : Contents.checkUnique resource table key row = .ok ()) {entry : Value × Record}
    (member : entry ∈ table) (other : entry.1.same key = false) {columns : List String}
    (demands : resource.model.DemandsUnique columns) : ¬entry.2.Repeats columns row := by
  intro repeats
  unfold Contents.checkUnique at checked
  split at checked
  · cases checked
  · rename_i none_repeated
    unfold Contents.repeated? at none_repeated
    rw [List.find?_eq_none] at none_repeated
    refine none_repeated columns (Model.mem_uniqueColumnSets.mpr demands) ?_
    have noNull : (columns.map row.get).any Value.isNull = false := by
      rw [List.any_eq_false]
      intro value isValue isNull
      obtain ⟨name, isColumn, rfl⟩ := List.mem_map.mp isValue
      exact (repeats name isColumn).2.1 (Value.isNull_iff.mp isNull)
    have sameItems : Value.sameItems (columns.map entry.2.get) (columns.map row.get) = true := by
      rw [Value.sameItems_eq_true, List.forall₂_map_left_iff, List.forall₂_map_right_iff,
        List.forall₂_same]
      exact fun name isColumn => (repeats name isColumn).2.2.1
    dsimp only
    rw [noNull, Bool.not_false, Bool.true_and, List.any_eq_true]
    exact ⟨entry, member, by rw [other, sameItems]; rfl⟩

theorem hasKey_eq_false (absent : table.hasKey key = false) {entry : Value × Record}
    (member : entry ∈ table) : entry.1.coincides key = false := by
  rw [hasKey, List.any_eq_false] at absent
  simpa using absent entry member

theorem same_eq_false {left right : Value} (apart : left.coincides right = false) :
    left.same right = false := by
  rw [Value.coincides, Bool.or_eq_false_iff] at apart
  exact apart.2

/-- Adding a row under a new key. -/
theorem Intact.append (intact : Intact resource table) (isKey : key.isKey = true)
    (absent : table.hasKey key = false)
    (checked : Contents.checkUnique resource table key row = .ok ())
    (filed : row.get resource.keyName = key) : Intact resource (table ++ [(key, row)]) where
  keys := by
    simp only [List.mem_append, List.mem_singleton]
    rintro entry (member | rfl)
    · exact intact.keys entry member
    · exact isKey
  distinct := by
    refine List.pairwise_append.mpr ⟨intact.distinct, List.pairwise_singleton _ _, ?_⟩
    intro entry member added isAdded
    obtain rfl := List.mem_singleton.mp isAdded
    exact hasKey_eq_false absent member
  unique := by
    refine List.pairwise_append.mpr ⟨intact.unique, List.pairwise_singleton _ _, ?_⟩
    intro entry member added isAdded columns demands
    obtain rfl := List.mem_singleton.mp isAdded
    exact not_repeats_of_checkUnique checked member
      (same_eq_false (hasKey_eq_false absent member)) demands
  filed keeps := by
    simp only [List.mem_append, List.mem_singleton]
    rintro entry (member | rfl)
    · exact intact.filed keeps entry member
    · exact filed

/-- Taking rows away. -/
theorem Intact.sublist {fewer : Table} (intact : Intact resource table)
    (sublist : fewer.Sublist table) : Intact resource fewer where
  keys entry member := intact.keys entry (sublist.subset member)
  distinct := intact.distinct.sublist sublist
  unique := intact.unique.sublist sublist
  filed keeps entry member := intact.filed keeps entry (sublist.subset member)

/-- The keys of a table that coincide with one key are one key. -/
theorem Intact.apart_of_coincides (intact : Intact resource table) (isKey : key.isKey = true)
    {left right : Value × Record} (leftMember : left ∈ table) (rightMember : right ∈ table)
    (apart : left.1.coincides right.1 = false) (coincide : left.1.coincides key = true) :
    right.1.coincides key = false := by
  by_contra both
  rw [Bool.not_eq_false] at both
  rw [Value.coincides_of_common (intact.keys left leftMember) (intact.keys right rightMember)
    isKey coincide both] at apart
  cases apart

/-- At most one row is meant by a key. -/
theorem Intact.entry_eq (intact : Intact resource table) (isKey : key.isKey = true)
    {left right : Value × Record} (leftMember : left ∈ table) (rightMember : right ∈ table)
    (leftMeant : left.1.coincides key = true) (rightMeant : right.1.coincides key = true) :
    left = right := by
  by_contra different
  have symmetric : Std.Symm fun left right : Value × Record =>
      ¬(left.1.coincides key = true ∧ right.1.coincides key = true) :=
    ⟨fun _ _ apart both => apart both.symm⟩
  have notBoth : table.Pairwise fun left right =>
      ¬(left.1.coincides key = true ∧ right.1.coincides key = true) := by
    refine intact.distinct.imp_of_mem ?_
    rintro first second isFirst isSecond apart ⟨firstMeant, secondMeant⟩
    rw [intact.apart_of_coincides isKey isFirst isSecond apart firstMeant] at secondMeant
    cases secondMeant
  exact notBoth.forall leftMember rightMember different ⟨leftMeant, rightMeant⟩

/-- Putting a row that was checked in the place of the one under a key. -/
theorem Intact.replace (intact : Intact resource table) (isKey : key.isKey = true)
    (checked : Contents.checkUnique resource table key row = .ok ())
    (filed : resource.marksKey = false → ∀ entry ∈ table, entry.1.coincides key = true →
      row.get resource.keyName = entry.1) :
    Intact resource (table.replace key row) where
  keys := by
    intro entry member
    obtain ⟨old, isOld, rfl⟩ := List.mem_map.mp member
    split
    · exact intact.keys old isOld
    · exact intact.keys old isOld
  distinct := by
    have same : (table.replace key row).map Prod.fst = table.map Prod.fst := map_fst_replace row
    have apart : (table.map Prod.fst).Pairwise fun left right => left.coincides right = false :=
      List.pairwise_map.mpr intact.distinct
    rw [← same] at apart
    exact List.pairwise_map.mp apart
  unique := by
    refine List.pairwise_map.mpr ?_
    refine (intact.unique.and intact.distinct).imp_of_mem ?_
    rintro left right isLeft isRight ⟨unrepeated, apart⟩ columns demands
    by_cases leftMeant : left.1.coincides key = true
    · have rightOther := intact.apart_of_coincides isKey isLeft isRight apart leftMeant
      rw [if_pos leftMeant, if_neg (by simp [rightOther])]
      intro repeats
      exact not_repeats_of_checkUnique checked isRight (same_eq_false rightOther) demands
        repeats.symm
    · have leftOther : left.1.coincides key = false := by simpa using leftMeant
      rw [if_neg leftMeant]
      split
      · exact not_repeats_of_checkUnique checked isLeft (same_eq_false leftOther) demands
      · exact unrepeated columns demands
  filed keeps := by
    intro entry member
    obtain ⟨old, isOld, rfl⟩ := List.mem_map.mp member
    split
    · rename_i meant
      exact filed keeps old isOld meant
    · exact intact.filed keeps old isOld

end Table

/-! ## Contents -/

namespace Contents

variable {registry : Registry} {resource : Resource} {contents after : Contents} {key : Value}
variable {used : List (String × Value)}

/-- Every table is as it should be, and whole numbers that were used as keys have counted
towards the sequence of their resource. -/
structure Intact (registry : Registry) (used : List (String × Value)) (contents : Contents) :
    Prop where
  tables : ∀ resource : Resource, registry.find? resource.name = some resource →
    (contents.table resource.name).Intact resource
  counted : ∀ name key number, (name, key) ∈ used → keyNumber? key = some number →
    number ≤ contents.sequence name

theorem intact_empty : Intact registry [] {} where
  tables _ _ := Table.intact_nil
  counted _ _ _ member := by cases member

/-- The key of a new row: the one that it is given, or else the next unused whole number. -/
def newKey (contents : Contents) (resource : Resource) (values : Record) : Value :=
  match (resource.model.rowOf values).get resource.keyName with
  | .null =>
      .int ((contents.table resource.name).freeKey (contents.sequence resource.name + 1)
        (contents.table resource.name).length)
  | key => key

/-- The contents after a key was used. -/
def withKey (contents : Contents) (name : String) (key : Value) : Contents :=
  match keyNumber? key with
  | some number => contents.withKeyUsed name number
  | none => contents

theorem table_withKey (name other : String) :
    (contents.withKey name key).table other = contents.table other := by
  unfold withKey
  split <;> rfl

theorem sequence_withKeyUsed (name other : String) (number : Int) :
    (contents.withKeyUsed name number).sequence other =
      if other = name then max (contents.sequence name) number else contents.sequence other := by
  rw [sequence, withKeyUsed, lookup_putEntry]
  split <;> rfl

theorem sequence_le_withKey (name other : String) :
    contents.sequence other ≤ (contents.withKey name key).sequence other := by
  unfold withKey
  split
  · rw [sequence_withKeyUsed]
    split
    · rename_i same
      rw [same]
      exact le_max_left _ _
    · exact le_refl _
  · exact le_refl _

theorem le_sequence_withKey {number : Int} (counts : keyNumber? key = some number)
    (name : String) : number ≤ (contents.withKey name key).sequence name := by
  rw [withKey, counts, sequence_withKeyUsed, if_pos rfl]
  exact le_max_right _ _

theorem insert_eq (contents : Contents) (resource : Resource) (values : Record) :
    contents.insert resource values =
      (let key := contents.newKey resource values
      let table := contents.table resource.name
      let row := (resource.model.rowOf values).set resource.keyName key
      if !key.isKey then .error (.plain .type)
      else if table.hasKey key then .error (.value (.duplicateKey resource.keyName key))
      else do
        checkUnique resource table key row
        let written := contents.withTable resource.name (table ++ [(key, row)])
        match keyNumber? key with
        | some number => .ok (key, written.withKeyUsed resource.name number)
        | none => .ok (key, written)) := rfl

/-- Adding a row, when it succeeds. -/
theorem insert_eq_ok {values : Record}
    (done : contents.insert resource values = .ok (key, after)) :
    key = contents.newKey resource values ∧ key.isKey = true ∧
      (contents.table resource.name).hasKey key = false ∧
      checkUnique resource (contents.table resource.name) key
        ((resource.model.rowOf values).set resource.keyName key) = .ok () ∧
      after = (contents.withTable resource.name ((contents.table resource.name) ++
        [(key, (resource.model.rowOf values).set resource.keyName key)])).withKey
          resource.name key := by
  rw [insert_eq] at done
  dsimp only at done
  generalize contents.newKey resource values = fresh at done ⊢
  split at done
  · cases done
  · rename_i isKey
    rw [Bool.not_eq_true', Bool.not_eq_false] at isKey
    split at done
    · cases done
    · rename_i absent
      rw [Bool.not_eq_true] at absent
      obtain ⟨_, checked, done⟩ := bind_eq_ok.mp done
      split at done
      · rename_i number counts
        cases done
        exact ⟨rfl, isKey, absent, checked, by rw [withKey, counts]⟩
      · rename_i counts
        cases done
        exact ⟨rfl, isKey, absent, checked, by rw [withKey, counts]⟩

/-- Changing a row, when it succeeds. -/
theorem update_eq_ok {changes : Record} {count : Int}
    (done : contents.update resource key changes = .ok (count, after)) :
    after = contents ∨ ∃ row, (contents.table resource.name).find? key = some row ∧
      key.isKey = true ∧
      checkUnique resource (contents.table resource.name) key (row.merge changes) = .ok () ∧
      after = contents.withTable resource.name
        ((contents.table resource.name).replace key (row.merge changes)) := by
  unfold update at done
  dsimp only at done
  split at done
  · cases done
    exact .inl rfl
  · split at done
    · cases done
    · rename_i isKey
      rw [Bool.not_eq_true', Bool.not_eq_false] at isKey
      split at done
      · cases done
        exact .inl rfl
      · rename_i row found
        obtain ⟨_, checked, done⟩ := bind_eq_ok.mp done
        cases done
        exact .inr ⟨row, found, isKey, checked, rfl⟩

/-- Removing a row, when it succeeds. -/
theorem delete_eq_ok {count : Int}
    (done : contents.delete resource key = .ok (count, after)) :
    after = contents ∨
      after = contents.withTable resource.name ((contents.table resource.name).remove key) := by
  unfold delete at done
  dsimp only at done
  split at done
  · cases done
  · split at done
    · cases done
      exact .inr rfl
    · cases done
      exact .inl rfl

theorem Intact.withTable (intact : contents.Intact registry used)
    (registered : registry.find? resource.name = some resource) {table : Table}
    (isIntact : table.Intact resource) :
    (contents.withTable resource.name table).Intact registry used where
  tables other otherRegistered := by
    by_cases same : other.name = resource.name
    · rw [same, registered, Option.some.injEq] at otherRegistered
      subst otherRegistered
      rwa [table_withTable]
    · rw [table_withTable_other same]
      exact intact.tables other otherRegistered
  counted := intact.counted

theorem Intact.withKey (intact : contents.Intact registry used) (name : String) (key : Value) :
    (contents.withKey name key).Intact registry ((name, key) :: used) where
  tables resource registered := by
    rw [table_withKey]
    exact intact.tables resource registered
  counted other otherKey number member counts := by
    cases List.mem_cons.mp member with
    | inl same =>
        cases same
        exact le_sequence_withKey counts name
    | inr earlier =>
        exact (intact.counted other otherKey number earlier counts).trans
          (sequence_le_withKey name other)

theorem Intact.insert {values : Record} (intact : contents.Intact registry used)
    (registered : registry.find? resource.name = some resource)
    (done : contents.insert resource values = .ok (key, after)) :
    after.Intact registry ((resource.name, key) :: used) := by
  obtain ⟨_, isKey, absent, checked, rfl⟩ := insert_eq_ok done
  refine Intact.withKey (intact.withTable registered ?_) resource.name key
  refine (intact.tables resource registered).append isKey absent checked ?_
  rw [Record.get_set, if_pos rfl]

theorem Intact.update {changes : Record} {count : Int} (intact : contents.Intact registry used)
    (registered : registry.find? resource.name = some resource)
    (unnamed : resource.marksKey = false → changes.has resource.keyName = false)
    (done : contents.update resource key changes = .ok (count, after)) :
    after.Intact registry used := by
  obtain rfl | ⟨row, found, isKey, checked, rfl⟩ := update_eq_ok done
  · exact intact
  · have tableIntact := intact.tables resource registered
    refine intact.withTable registered (tableIntact.replace isKey checked ?_)
    intro keeps entry member meant
    rw [Record.get_merge_other (unnamed keeps)]
    -- The row that was found stands under this entry's key, the only one that is meant.
    obtain ⟨other, isFound, rfl⟩ := Option.map_eq_some_iff.mp found
    have otherMeant : other.1.coincides key = true :=
      List.find?_some (p := fun entry : Value × Record => entry.1.coincides key) isFound
    obtain rfl := tableIntact.entry_eq isKey member (List.mem_of_find?_eq_some isFound) meant
      otherMeant
    exact tableIntact.filed keeps entry member

theorem Intact.delete {count : Int} (intact : contents.Intact registry used)
    (registered : registry.find? resource.name = some resource)
    (done : contents.delete resource key = .ok (count, after)) :
    after.Intact registry used := by
  obtain rfl | rfl := delete_eq_ok done
  · exact intact
  · exact intact.withTable registered
      ((intact.tables resource registered).sublist List.filter_sublist)

theorem newKey_keyless {values : Record}
    (keyless : (resource.model.rowOf values).get resource.keyName = .null) :
    contents.newKey resource values =
      .int ((contents.table resource.name).freeKey (contents.sequence resource.name + 1)
        (contents.table resource.name).length) := by
  rw [newKey, keyless]

/-- A row without a key gets the first unused whole number above the sequence, and is refused
only for repeating another row. -/
theorem insert_keyless {values : Record}
    (keyless : (resource.model.rowOf values).get resource.keyName = .null) :
    ∃ number, contents.sequence resource.name < number ∧
      (contents.table resource.name).hasKey (.int number) = false ∧
      (∀ smaller, contents.sequence resource.name < smaller → smaller < number →
        (contents.table resource.name).hasKey (.int smaller) = true) ∧
      ((∃ after, contents.insert resource values = .ok (.int number, after)) ∨
        ∃ columns, contents.insert resource values =
          .error (.value (.duplicateValues columns resource.name))) := by
  obtain ⟨free, above, first⟩ := Table.freeKey_spec _ _
    (Table.exists_free (contents.table resource.name) (contents.sequence resource.name + 1))
  have isNew : contents.newKey resource values = _ := newKey_keyless keyless
  generalize (contents.table resource.name).freeKey _ _ = number at free above first isNew
  refine ⟨number, by omega, free, fun smaller more => first smaller (by omega), ?_⟩
  rw [insert_eq, isNew]
  dsimp only
  rw [if_neg (by simp [Value.isKey]), if_neg (by rw [free]; simp)]
  unfold checkUnique
  split
  · exact .inr ⟨_, rfl⟩
  · exact .inl ⟨_, rfl⟩

end Contents

end ResourceServer
