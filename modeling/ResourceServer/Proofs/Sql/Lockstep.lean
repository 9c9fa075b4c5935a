import ResourceServer.Proofs.Sql.Asking

/-!
# A table in two stores

A store in memory and a database keep a table in step when they hold the same records under the same
numbers, none of which is greater than the greatest one that was used.  Adding, changing and removing a
row then turn out alike, and keep the tables in step.
-/

namespace ResourceServer.Sql

/-- Two computations turn out alike: both fail, for whatever reason, or both have results that are
related. -/
inductive TurnOutAlike {α β : Type} (related : α → β → Prop) :
    Except Error α → Except Error β → Prop
  | failed (left right : Error) : TurnOutAlike related (.error left) (.error right)
  | done {left : α} {right : β} (isRelated : related left right) :
      TurnOutAlike related (.ok left) (.ok right)

/-! ## Numbers as keys -/

theorem coincides_int (left right : Int) :
    (Value.int left).coincides (.int right) = (left == right) := by
  have itself : ∀ number : Int, (Value.int number).coincides (.int number) = true :=
    fun number => (Value.Orderly.number rfl rfl).coincides_self
  rw [Bool.eq_iff_iff, beq_iff_eq]
  constructor
  · exact Value.coincides_int_inj (itself left)
  · rintro rfl
    exact itself left

namespace Ascending

variable {rows : List (Int × Row)}

/-- Taking one row out and putting it in front again. -/
theorem cons_others_perm (ascending : Ascending rows) {numbered : Int × Row}
    (isRow : numbered ∈ rows) :
    (numbered :: rows.filter fun other => other.1 != numbered.1).Perm rows := by
  obtain ⟨before, behind, rfl⟩ := List.append_of_mem isRow
  rw [Ascending, List.pairwise_append, List.pairwise_cons] at ascending
  have keptBefore : before.filter (fun other => other.1 != numbered.1) = before := by
    refine List.filter_eq_self.mpr fun other isOther => ?_
    exact bne_iff_ne.mpr (ne_of_lt (ascending.2.2 other isOther numbered List.mem_cons_self))
  have keptBehind : behind.filter (fun other => other.1 != numbered.1) = behind := by
    refine List.filter_eq_self.mpr fun other isOther => ?_
    exact bne_iff_ne.mpr (ne_of_gt (ascending.2.1.1 other isOther))
  rw [List.filter_append, List.filter_cons_of_neg (by simp), keptBefore, keptBehind]
  exact List.perm_middle.symm

/-- A key means no row, or the row of one number. -/
theorem meant_cases (ascending : Ascending rows) {key : Value} (isKey : key.isKey = true) :
    rows.filter (fun numbered => (Value.int numbered.1).coincides key) = [] ∨
      ∃ numbered ∈ rows,
        rows.filter (fun other => (Value.int other.1).coincides key) = [numbered] ∧
        ∀ other : Int × Row, (Value.int other.1).coincides key = (other.1 == numbered.1) := by
  have one : ∀ left right : Int, (Value.int left).coincides key = true →
      (Value.int right).coincides key = true → left = right := by
    intro left right leftMeant rightMeant
    rw [← beq_iff_eq, ← coincides_int]
    exact Value.coincides_of_common rfl rfl isKey leftMeant rightMeant
  have sorted : Ascending (rows.filter fun other => (Value.int other.1).coincides key) :=
    ascending.sublist List.filter_sublist
  have meant : ∀ numbered ∈ rows.filter (fun other => (Value.int other.1).coincides key),
      numbered ∈ rows ∧ (Value.int numbered.1).coincides key = true :=
    fun numbered isMeant => List.mem_filter.mp isMeant
  cases found : rows.filter (fun other => (Value.int other.1).coincides key) with
  | nil => exact .inl rfl
  | cons numbered rest =>
      rw [found] at sorted meant
      rw [List.forall_mem_cons] at meant
      obtain ⟨⟨isRow, isMeant⟩, others⟩ := meant
      have alone : rest = [] := by
        cases rest with
        | nil => rfl
        | cons other rest =>
            have before := (List.pairwise_cons.mp sorted).1 other List.mem_cons_self
            have same := one _ _ isMeant (others other List.mem_cons_self).2
            exact absurd same (ne_of_lt before)
      refine .inr ⟨numbered, isRow, by rw [alone], fun other => ?_⟩
      rw [Bool.eq_iff_iff, beq_iff_eq]
      constructor
      · exact fun otherMeant => one _ _ otherMeant isMeant
      · intro same
        rw [same]
        exact isMeant

end Ascending

/-! ## Adding a row to a table -/

section

variable {resource : Resource} {records : ResourceServer.Table} {key : Value} {table : Table}
  {number : Int} {row : Row}

theorem add_filed (counted : resource.IsCounted) (model : table.model = resource.model)
    (filed : Row.Filed resource number row) :
    table.add number row =
      if table.rows.any (·.1 == number) then
        .error (.integrity (.unique resource.model.table [resource.keyName]))
      else
        match (uniqueSets resource.model).find? fun columns =>
            table.rows.any fun entry => Row.agrees columns row entry.2 with
        | some columns => .error (.integrity (.unique resource.model.table columns))
        | none => .ok (table.place number row) := by
  obtain ⟨keyColumn, _, isNumber, named, _⟩ := counted.keyColumn
  have noneMissing : Table.missing? resource.model row = none := by
    rw [Table.missing?, List.find?_eq_none]
    intro column isColumn isMissing
    rw [Bool.and_eq_true] at isMissing
    rw [filed.filled column isColumn isMissing.1] at isMissing
    cases isMissing.2
  unfold Table.add
  dsimp only
  rw [model, noneMissing, isNumber]
  cases table.rows.any (·.1 == number) with
  | true => rw [if_pos rfl, ← named]
  | false => rfl

theorem Table.remove_free (table : Table) (number : Int) :
    (table.remove number).rows.any (·.1 == number) = false := by
  rw [List.any_eq_false]
  intro other isOther same
  exact bne_iff_ne.mp (List.mem_filter.mp isOther).2 (beq_iff_eq.mp same)

/-- A filed row under a free number is added to a table when its record passes the check of a store in
memory, if the two find the same repetitions. -/
theorem add_checked (counted : resource.IsCounted) (model : table.model = resource.model)
    (filed : Row.Filed resource number row) (free : table.rows.any (·.1 == number) = false)
    (sameRepetition : (Contents.repeated? resource records key (row.record resource.model)).isSome =
      collides resource.model row table.rows) :
    (∃ refusal fault,
      Contents.checkUnique resource records key (row.record resource.model) = .error refusal ∧
        table.add number row = .error fault) ∨
      (Contents.checkUnique resource records key (row.record resource.model) = .ok () ∧
        table.add number row = .ok (table.place number row)) := by
  rw [add_filed counted model filed, free, if_neg Bool.false_ne_true]
  rw [collides, ← List.isSome_find?] at sameRepetition
  unfold Contents.checkUnique
  cases repeated : Contents.repeated? resource records key (row.record resource.model) with
  | none =>
      rw [repeated] at sameRepetition
      rw [Option.isSome_eq_false_iff.mp sameRepetition.symm |> Option.isNone_iff_eq_none.mp]
      exact .inr ⟨rfl, rfl⟩
  | some columns =>
      rw [repeated] at sameRepetition
      obtain ⟨others, collide⟩ := Option.isSome_iff_exists.mp sameRepetition.symm
      rw [collide]
      exact .inl ⟨_, _, rfl, rfl⟩

end

/-! ## Tables in step -/

/-- A table of a store in memory and one of a database are in step: they hold the same records under the
same numbers, which are positive and not above the greatest one that was used. -/
structure Lockstep (resource : Resource) (records : ResourceServer.Table) (sequence : Int)
    (table : Table) : Prop where
  model : table.model = resource.model
  same : records.Perm (table.rows.map (Row.entry resource.model))
  filed : ∀ numbered ∈ table.rows, Row.Filed resource numbered.1 numbered.2
  ascending : Ascending table.rows
  counted : ∀ numbered ∈ table.rows, 0 < numbered.1 ∧ numbered.1 ≤ sequence

namespace Lockstep

variable {resource : Resource} {records : ResourceServer.Table} {sequence : Int} {table : Table}
  {key : Value} {number : Int} {row : Row}

theorem empty (resource : Resource) : Lockstep resource [] 0 { model := resource.model } where
  model := rfl
  same := .nil
  filed _ member := by cases member
  ascending := .nil
  counted _ member := by cases member

theorem hasKey_eq (lockstep : Lockstep resource records sequence table) (key : Value) :
    records.hasKey key =
      table.rows.any fun numbered => (Value.int numbered.1).coincides key := by
  rw [ResourceServer.Table.hasKey, lockstep.same.any_eq, List.any_map]
  rfl

theorem hasKey_int (lockstep : Lockstep resource records sequence table) (number : Int) :
    records.hasKey (.int number) = table.rows.any (·.1 == number) := by
  rw [lockstep.hasKey_eq]
  exact congrArg table.rows.any (funext fun numbered => coincides_int numbered.1 number)

/-- Both tables keep the same records where they keep those that pass a test. -/
theorem filter_perm (lockstep : Lockstep resource records sequence table)
    (test : Value × Record → Bool) :
    (records.filter test).Perm
      ((table.rows.filter fun numbered => test (Row.entry resource.model numbered)).map
        (Row.entry resource.model)) := by
  have kept := lockstep.same.filter test
  rwa [List.filter_map] at kept

/-- The records that a new one under a key may not repeat. -/
theorem others_perm (lockstep : Lockstep resource records sequence table) (key : Value) :
    (records.filter fun entry => !entry.1.same key).Perm
      ((table.rows.filter fun numbered => !(Value.int numbered.1).coincides key).map
        (Row.entry resource.model)) := by
  have kept := lockstep.filter_perm fun entry => !entry.1.same key
  simp only [Row.entry, ← coincides_eq_same] at kept
  exact kept

/-! ### Adding a row -/

/-- A new row under a number that is free. -/
theorem add (lockstep : Lockstep resource records sequence table)
    (positive : 0 < number) (free : records.hasKey (.int number) = false)
    (filed : Row.Filed resource number row) :
    Lockstep resource (records ++ [(.int number, row.record resource.model)]) (max sequence number)
      (table.place number row) where
  model := lockstep.model
  same := by
    refine (List.perm_append_singleton _ _).trans ?_
    exact (lockstep.same.cons _).trans (Table.place_perm.map (Row.entry resource.model)).symm
  filed numbered member := by
    cases List.mem_cons.mp (Table.place_perm.mem_iff.mp member) with
    | inl isNew =>
        subst isNew
        exact filed
    | inr isOld => exact lockstep.filed numbered isOld
  ascending := by
    refine Table.place_ascending lockstep.ascending fun numbered isRow same => ?_
    rw [lockstep.hasKey_int, List.any_eq_false] at free
    exact free numbered isRow (beq_iff_eq.mpr same)
  counted numbered member := by
    cases List.mem_cons.mp (Table.place_perm.mem_iff.mp member) with
    | inl isNew =>
        subst isNew
        exact ⟨positive, le_max_right _ _⟩
    | inr isOld =>
        have counted := lockstep.counted numbered isOld
        exact ⟨counted.1, counted.2.trans (le_max_left _ _)⟩

/-- A record under a number that no row has repeats others exactly when its row may not be added. -/
theorem repeated?_new (lockstep : Lockstep resource records sequence table)
    (counted : resource.IsCounted) (free : records.hasKey (.int number) = false)
    (filed : Row.Filed resource number row) :
    (Contents.repeated? resource records (.int number) (row.record resource.model)).isSome =
      collides resource.model row table.rows := by
  refine repeated?_isSome counted ?_ filed lockstep.filed
  have noneMeant : table.rows.filter (fun numbered =>
      !(Value.int numbered.1).coincides (.int number)) = table.rows := by
    rw [lockstep.hasKey_eq, List.any_eq_false] at free
    refine List.filter_eq_self.mpr fun numbered isRow => ?_
    rw [Bool.not_eq_true', Bool.eq_false_iff]
    exact free numbered isRow
  have others := lockstep.others_perm (.int number)
  rwa [noneMeant] at others

/-! ### The number of a new row -/

/-- A store in memory counts on after the greatest number that was used. -/
theorem freeKey_next (lockstep : Lockstep resource records sequence table) :
    records.freeKey (sequence + 1) records.length = sequence + 1 := by
  have free : records.hasKey (.int (sequence + 1)) = false := by
    rw [lockstep.hasKey_int, List.any_eq_false]
    intro numbered isRow same
    have atMost := (lockstep.counted numbered isRow).2
    rw [beq_iff_eq.mp same] at atMost
    omega
  cases records.length with
  | zero => rfl
  | succ budget => rw [ResourceServer.Table.freeKey, free, if_neg Bool.false_ne_true]

/-- A database counts on after its last row: from the same number, when no number was used or the row of
the greatest one is still there. -/
theorem nextNumber_eq (lockstep : Lockstep resource records sequence table)
    (stands : sequence = 0 ∨ records.hasKey (.int sequence) = true) :
    0 < sequence + 1 ∧ table.nextNumber = sequence + 1 := by
  rw [lockstep.hasKey_int, List.any_eq_true] at stands
  obtain unused | ⟨last, isRow, isLast⟩ := stands
  · have noRow : table.rows = [] := by
      refine List.eq_nil_iff_forall_not_mem.mpr fun numbered isRow => ?_
      have := lockstep.counted numbered isRow
      omega
    rw [unused, Table.nextNumber, noRow]
    exact ⟨by decide, rfl⟩
  · rw [beq_iff_eq] at isLast
    have positive := (lockstep.counted last isRow).1
    exact ⟨by omega, Table.nextNumber_eq lockstep.ascending ⟨last, isRow, isLast⟩
      fun numbered isRow => (lockstep.counted numbered isRow).2⟩

/-! ### The row that a key means -/

variable {column : Column} {test : Test Cell}

theorem passing_eq (lockstep : Lockstep resource records sequence table)
    (named : column.name = resource.keyName) (asks : Asks column key test) :
    table.passing test =
      table.rows.filter fun numbered => (Value.int numbered.1).coincides key := by
  refine List.filter_congr fun numbered isRow => ?_
  refine asks.selects numbered.2 numbered.1 ?_
  rw [named]
  exact (lockstep.filed numbered isRow).key

/-- What a key means in two tables in step: no row of either, or one row that is the same in both. -/
theorem meant_cases (lockstep : Lockstep resource records sequence table)
    (named : column.name = resource.keyName) (isKey : key.isKey = true)
    (asks : Asks column key test) :
    (records.hasKey key = false ∧ records.find? key = none ∧ table.passing test = []) ∨
      ∃ numbered ∈ table.rows, records.hasKey key = true ∧
        records.find? key = some (numbered.2.record resource.model) ∧
        table.passing test = [numbered] ∧
        ∀ other : Int × Row, (Value.int other.1).coincides key = (other.1 == numbered.1) := by
  rw [lockstep.passing_eq named asks, lockstep.hasKey_eq]
  obtain noneMeant | ⟨numbered, isRow, onlyMeant, means⟩ := lockstep.ascending.meant_cases isKey
  · have noKey := List.filter_eq_nil_iff.mp noneMeant
    refine .inl ⟨List.any_eq_false.mpr noKey, ?_, noneMeant⟩
    rw [ResourceServer.Table.find?, Option.map_eq_none_iff, List.find?_eq_none]
    intro entry isEntry
    obtain ⟨other, isOther, rfl⟩ := List.mem_map.mp (lockstep.same.subset isEntry)
    exact noKey other isOther
  · have isMeant : (Value.int numbered.1).coincides key = true := by
      rw [means, beq_self_eq_true]
    refine .inr ⟨numbered, isRow, List.any_eq_true.mpr ⟨numbered, isRow, isMeant⟩, ?_, onlyMeant,
      means⟩
    rw [ResourceServer.Table.find?, Option.map_eq_some_iff]
    cases found : List.find? (fun entry : Value × Record => entry.1.coincides key) records with
    | none =>
        have isEntry := lockstep.same.symm.subset (List.mem_map_of_mem isRow)
        exact absurd isMeant (List.find?_eq_none.mp found _ isEntry)
    | some entry =>
        obtain ⟨other, isOther, rfl⟩ :=
          List.mem_map.mp (lockstep.same.subset (List.mem_of_find?_eq_some found))
        have otherMeant : (Value.int other.1).coincides key = true :=
          List.find?_some (p := fun entry : Value × Record => entry.1.coincides key) found
        rw [means, beq_iff_eq] at otherMeant
        obtain rfl := lockstep.ascending.eq_of_number isOther isRow otherMeant
        exact ⟨_, rfl, rfl⟩

/-- The row that a key means is taken away. -/
theorem remove (lockstep : Lockstep resource records sequence table)
    (means : ∀ other : Int × Row, (Value.int other.1).coincides key = (other.1 == number)) :
    Lockstep resource (records.remove key) sequence (table.remove number) where
  model := lockstep.model
  same := by
    have kept := lockstep.filter_perm fun entry => !entry.1.coincides key
    simp only [Row.entry, means] at kept
    exact kept
  filed numbered member := lockstep.filed numbered (List.mem_of_mem_filter member)
  ascending := lockstep.ascending.remove _
  counted numbered member := lockstep.counted numbered (List.mem_of_mem_filter member)

/-- Another row is put in the place of the one that a key means. -/
theorem replace (lockstep : Lockstep resource records sequence table) {numbered : Int × Row}
    (isRow : numbered ∈ table.rows)
    (means : ∀ other : Int × Row, (Value.int other.1).coincides key = (other.1 == numbered.1))
    (filed : Row.Filed resource numbered.1 row) :
    Lockstep resource (records.replace key (row.record resource.model)) sequence
      ((table.remove numbered.1).place numbered.1 row) where
  model := lockstep.model
  same := by
    have moved := (lockstep.ascending.cons_others_perm isRow).map (Row.entry resource.model)
    have replaced := (lockstep.same.trans moved.symm).map fun entry : Value × Record =>
      if entry.1.coincides key then (entry.1, row.record resource.model) else entry
    refine replaced.trans (List.Perm.trans ?_ (Table.place_perm.map _).symm)
    have isMeant : (Value.int numbered.1).coincides key = true := by
      rw [means, beq_self_eq_true]
    rw [List.map_cons, List.map_cons, List.map_cons, List.map_map]
    have kept : ((table.rows.filter fun other => other.1 != numbered.1).map
        ((fun entry : Value × Record =>
          if entry.1.coincides key then (entry.1, row.record resource.model) else entry) ∘
            Row.entry resource.model)) =
          (table.rows.filter fun other => other.1 != numbered.1).map
            (Row.entry resource.model) := by
      refine List.map_congr_left fun other isOther => ?_
      have different := bne_iff_ne.mp (List.mem_filter.mp isOther).2
      refine if_neg ?_
      change ¬(Value.int other.1).coincides key = true
      rw [means, beq_iff_eq]
      exact different
    rw [kept]
    refine List.Perm.of_eq (congrArg (· :: _) ?_)
    exact if_pos isMeant
  filed other member := by
    cases List.mem_cons.mp (Table.place_perm.mem_iff.mp member) with
    | inl isNew =>
        subst isNew
        exact filed
    | inr isOld => exact lockstep.filed other (List.mem_of_mem_filter isOld)
  ascending := by
    refine Table.place_ascending (lockstep.ascending.remove _) fun other isOther => ?_
    exact bne_iff_ne.mp (List.mem_filter.mp isOther).2
  counted other member := by
    cases List.mem_cons.mp (Table.place_perm.mem_iff.mp member) with
    | inl isNew =>
        subst isNew
        exact lockstep.counted numbered isRow
    | inr isOld => exact lockstep.counted other (List.mem_of_mem_filter isOld)

end Lockstep

/-! ## Writing to both tables -/

/-- Whether the row of the greatest number that was used as a key is still there, if any was. -/
def lastKeyStands (contents : Contents) (name : String) : Bool :=
  contents.sequence name == 0 || (contents.table name).hasKey (.int (contents.sequence name))

/-- What both stores have after writing to one table: the same answer, and tables in step. -/
structure WrittenAlike {α β : Type} (resource : Resource) (answer : β → α) (inMemory : α × Contents)
    (inDatabase : β × Table) : Prop where
  result : inMemory.1 = answer inDatabase.1
  lockstep : Lockstep resource (inMemory.2.table resource.name) (inMemory.2.sequence resource.name)
    inDatabase.2

section

variable {resource : Resource} {contents : Contents} {table : Table} {values changes : Record}
  {cells : List (Column × Cell)} {key : Value}

/-- Both stores give a new row the same positive number, when it brings one, or when the row of the greatest
number that was used is still there. -/
theorem Lockstep.exists_number
    (lockstep : Lockstep resource (contents.table resource.name) (contents.sequence resource.name)
      table)
    (counted : resource.IsCounted)
    (writes : Writes resource.model.columns (insertedValue? resource values) cells)
    (numbered : ((resource.model.rowOf values).get resource.keyName = .null ∧
        lastKeyStands contents resource.name = true) ∨
      ∃ number : Int, (resource.model.rowOf values).get resource.keyName = .int number ∧ 0 < number) :
    ∃ number given, 0 < number ∧ contents.newKey resource values = .int number ∧
      Table.givenNumber? resource.model cells = .ok given ∧
        given.getD table.nextNumber = number := by
  obtain ⟨keylessNumber, givenNumber⟩ := givenNumber?_newRow counted writes
  obtain ⟨keyless, stands⟩ | ⟨number, isGiven, positive⟩ := numbered
  · rw [lastKeyStands, Bool.or_eq_true, beq_iff_eq] at stands
    obtain ⟨positive, isNext⟩ := lockstep.nextNumber_eq stands
    refine ⟨contents.sequence resource.name + 1, none, positive, ?_, keylessNumber keyless, isNext⟩
    rw [Contents.newKey_keyless keyless, lockstep.freeKey_next]
  · refine ⟨number, some number, positive, ?_, givenNumber number isGiven, rfl⟩
    rw [Contents.newKey, isGiven]

/-- A connection yields the number of a new row as its key. -/
theorem insertedKey_eq (counted : resource.IsCounted) {number : Int}
    (isNew : contents.newKey resource values = .int number) :
    insertedKey resource values number = .int number := by
  obtain ⟨column, member, _, named, _, isPrimary, noDefault, _⟩ := counted.keyColumn
  rw [insertedKey, ← named, counted.column?_eq member]
  dsimp only
  rw [named, isPrimary, Bool.true_and]
  unfold Contents.newKey at isNew
  split at isNew
  · rename_i keyless
    rw [keyless, valueWithDefault_null noDefault]
    rfl
  · rename_i keyed
    rw [isNew]
    rfl

/-- A row is added to both tables under the same number, or to none. -/
theorem Lockstep.insert_alike
    (lockstep : Lockstep resource (contents.table resource.name) (contents.sequence resource.name)
      table)
    (counted : resource.IsCounted) (takes : TakesRow resource values)
    (writes : Writes resource.model.columns (insertedValue? resource values) cells)
    (numbered : ((resource.model.rowOf values).get resource.keyName = .null ∧
        lastKeyStands contents resource.name = true) ∨
      ∃ number : Int, (resource.model.rowOf values).get resource.keyName = .int number ∧ 0 < number) :
    TurnOutAlike (WrittenAlike resource (insertedKey resource values))
      (contents.insert resource values) (table.insert cells) := by
  obtain ⟨number, given, positive, isNew, isGiven, isNumber⟩ :=
    lockstep.exists_number counted writes numbered
  obtain ⟨filed, isRecord⟩ := newRow_filed counted takes writes number
  have inserted : table.insert cells =
      (table.add number (newRow resource.model number cells)).map fun after => (number, after) := by
    unfold Table.insert
    dsimp only
    rw [lockstep.model, isGiven]
    change (table.add (given.getD table.nextNumber) _ >>= _) = _
    rw [isNumber]
    rfl
  rw [inserted, Contents.insert_eq, isNew]
  dsimp only
  rw [← isRecord, if_neg (by simp [Value.isKey]), lockstep.hasKey_int]
  cases taken : table.rows.any (·.1 == number) with
  | true =>
      rw [add_filed counted lockstep.model filed, taken]
      exact .failed _ _
  | false =>
      have free := taken
      rw [← lockstep.hasKey_int] at free
      rw [if_neg Bool.false_ne_true]
      obtain ⟨refusal, fault, checked, refused⟩ | ⟨checked, placed⟩ := add_checked counted
        lockstep.model filed taken (lockstep.repeated?_new counted free filed)
      · rw [checked, refused]
        exact .failed _ _
      · rw [checked, placed]
        refine .done ⟨(insertedKey_eq counted isNew).symm, ?_⟩
        have added := lockstep.add positive free filed
        change Lockstep resource
          ((contents.withTable resource.name _).table resource.name)
          (((contents.withTable resource.name _).withKeyUsed resource.name number).sequence
            resource.name) _
        rw [Contents.table_withTable, Contents.sequence_withKeyUsed, if_pos rfl]
        exact added

variable {column : Column} {test : Test Cell}

/-- Changes that bring no key leave a row under its number. -/
theorem Lockstep.change_eq {records : ResourceServer.Table} {sequence : Int}
    (lockstep : Lockstep resource records sequence table) (counted : resource.IsCounted)
    (takes : TakesChanges resource changes)
    (writes : Writes resource.model.columns (fun column => changes.get? column.name) cells)
    (numbered : Int × Row) :
    Table.change cells table numbered =
      (table.remove numbered.1).add numbered.1
        (changedRow resource.model numbered.1 numbered.2 cells) := by
  obtain ⟨noneGiven, keepsNumber⟩ := givenNumber?_changes counted takes writes
  unfold Table.change
  dsimp only
  rw [lockstep.model, noneGiven, keepsNumber]
  rfl

/-- The row of a key is changed in both tables, or in none. -/
theorem Lockstep.update_alike
    (lockstep : Lockstep resource (contents.table resource.name) (contents.sequence resource.name)
      table)
    (counted : resource.IsCounted) (takes : TakesChanges resource changes)
    (notEmpty : changes.isEmpty = false)
    (writes : Writes resource.model.columns (fun column => changes.get? column.name) cells)
    (named : column.name = resource.keyName) (isKey : key.isKey = true)
    (asks : Asks column key test) :
    TurnOutAlike (WrittenAlike resource id)
      (contents.update resource key changes)
      (((table.passing test).foldlM (Table.change cells) table).map fun after =>
        (((table.passing test).length : Int), after)) := by
  unfold Contents.update
  dsimp only
  rw [notEmpty, isKey, Bool.not_true, if_neg Bool.false_ne_true, if_neg Bool.false_ne_true]
  obtain ⟨_, notFound, noRow⟩ | ⟨numbered, isRow, _, found, onlyRow, means⟩ :=
    lockstep.meant_cases named isKey asks
  · rw [notFound, noRow]
    exact .done ⟨rfl, lockstep⟩
  · obtain ⟨filed, isRecord⟩ :=
      changedRow_filed counted takes writes (lockstep.filed numbered isRow)
    have changed := lockstep.change_eq counted takes writes numbered
    have folded : [numbered].foldlM (Table.change cells) table =
        (table.remove numbered.1).add numbered.1
          (changedRow resource.model numbered.1 numbered.2 cells) := by
      rw [List.foldlM_cons, changed]
      cases (table.remove numbered.1).add numbered.1 _ <;> rfl
    rw [found, onlyRow, folded]
    dsimp only
    rw [← isRecord]
    have removed := lockstep.remove means
    -- The changed row may repeat what stood in its own place: it is checked against all other rows.
    have sameRepetition : (Contents.repeated? resource (contents.table resource.name) key
        ((changedRow resource.model numbered.1 numbered.2 cells).record resource.model)).isSome =
          collides resource.model (changedRow resource.model numbered.1 numbered.2 cells)
            (table.remove numbered.1).rows := by
      refine repeated?_isSome counted ?_ filed removed.filed
      have others := lockstep.others_perm key
      simp only [means] at others
      exact others
    obtain ⟨refusal, fault, checked, refused⟩ | ⟨checked, placed⟩ :=
      add_checked counted removed.model filed (table.remove_free numbered.1) sameRepetition
    · rw [checked, refused]
      exact .failed _ _
    · rw [checked, placed]
      refine .done ⟨rfl, ?_⟩
      rw [Contents.table_withTable]
      exact lockstep.replace isRow means filed

/-- The row of a key is removed from both tables, if they have one. -/
theorem Lockstep.delete_alike
    (lockstep : Lockstep resource (contents.table resource.name) (contents.sequence resource.name)
      table)
    (named : column.name = resource.keyName) (isKey : key.isKey = true)
    (asks : Asks column key test) :
    TurnOutAlike (WrittenAlike resource id)
      (contents.delete resource key)
      (.ok (((table.passing test).length : Int),
        (table.passing test).foldl (fun kept numbered => kept.remove numbered.1) table)) := by
  unfold Contents.delete
  dsimp only
  rw [isKey]
  obtain ⟨absent, _, noRow⟩ | ⟨numbered, isRow, present, _, onlyRow, means⟩ :=
    lockstep.meant_cases named isKey asks
  · rw [absent, noRow]
    exact .done ⟨rfl, lockstep⟩
  · rw [present, onlyRow]
    refine .done ⟨rfl, ?_⟩
    rw [Contents.table_withTable]
    exact lockstep.remove means

end

end ResourceServer.Sql
