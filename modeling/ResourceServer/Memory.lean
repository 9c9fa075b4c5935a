import ResourceServer.Filter.Evaluation
import ResourceServer.Memory.Order
import ResourceServer.Store.Loading

/-!
# Store in memory

The rows of every resource are kept as they were given, in the order of their insertion. This store
defines what a specification means: a row matches when it lies in the scope of trashed rows, satisfies
every filter and is found by the search. A transaction keeps a copy of the contents, and taking it back
puts the copy in their place.
-/

namespace ResourceServer

/-- The rows of one resource by key, in the order of their insertion. -/
abbrev Table := List (Value × Record)

namespace Table

/-- Whether a key is used. -/
def hasKey (table : Table) (key : Value) : Bool := table.any fun entry => entry.1.coincides key

/-- The row of a key. -/
def find? (table : Table) (key : Value) : Option Record :=
  (List.find? (fun entry => entry.1.coincides key) table).map Prod.snd

/-- The rows. -/
def rows (table : Table) : List Record := table.map Prod.snd

/-- Puts another row in the place of a key. -/
def replace (table : Table) (key : Value) (row : Record) : Table :=
  table.map fun entry => if entry.1.coincides key then (entry.1, row) else entry

/-- Removes the row of a key. -/
def remove (table : Table) (key : Value) : Table := table.filter fun entry => !entry.1.coincides key

/-- The first unused whole number from a start on. A table of n rows uses at most n of them. -/
def freeKey (table : Table) (start : Int) : (budget : Nat) → Int
  | 0 => start
  | budget + 1 => if table.hasKey (.int start) then freeKey table (start + 1) budget else start

end Table

/-- All rows, and the greatest whole number that was used as a key of each resource. -/
structure Contents where
  tables : List (String × Table) := []
  sequences : List (String × Int) := []
deriving Repr, Inhabited

namespace Contents

/-- The rows of a resource. -/
def table (contents : Contents) (resource : String) : Table :=
  (contents.tables.lookup resource).getD []

/-- The greatest whole number that was used as a key of a resource. -/
def sequence (contents : Contents) (resource : String) : Int :=
  (contents.sequences.lookup resource).getD 0

/-- Puts an entry in the place of the one with the same name, or at the end. -/
def putEntry {α : Type} (name : String) (value : α) : List (String × α) → List (String × α)
  | [] => [(name, value)]
  | entry :: rest => if entry.1 == name then (name, value) :: rest else entry :: putEntry name value rest

/-- The contents with other rows of a resource. -/
def withTable (contents : Contents) (resource : String) (table : Table) : Contents :=
  { contents with tables := putEntry resource table contents.tables }

/-- The contents after a whole number was used as a key. -/
def withKeyUsed (contents : Contents) (resource : String) (key : Int) : Contents :=
  { contents with
    sequences := putEntry resource (max (contents.sequence resource) key) contents.sequences }

/-! ## Reading -/

/-- Whether a row lies in the scope of trashed rows. -/
def inScope (spec : QuerySpec) (row : Record) : Bool :=
  if spec.resource.softDeletes then
    match spec.trashed with
    | .without => !spec.resource.isTrashed row
    | .included => true
    | .only => spec.resource.isTrashed row
  else true

/-- Whether a row matches a specification. -/
def rowMatches (spec : QuerySpec) (row : Record) : Except Error Bool :=
  if inScope spec row then do
    let holds ← Filter.evaluateAll row spec.wheres
    .ok (holds && spec.searchTerm.all fun term => term.evaluate row)
  else .ok false

/-- Number of live rows that a relation leads to from a row. -/
def relatedCount (registry : Registry) (contents : Contents) (resource : Resource) (name : String)
    (row : Record) : Except Error Int := do
  let relation ← resource.relation name
  let target ← registry.resource relation.target
  let (ownerField, targetField) := relation.joiningFields resource target
  let value := row.get ownerField
  if value.isNull then .ok 0
  else
    .ok ((contents.table target.name).rows.countP fun related =>
      (related.get targetField).same value && !target.isTrashed related)

/-- A row with the counts that a specification asks for. -/
def withCounts (registry : Registry) (contents : Contents) (spec : QuerySpec) (row : Record) :
    Except Error Record :=
  spec.aggregates.foldlM (fun result aggregate => do
    let count ← relatedCount registry contents spec.resource aggregate.relation row
    .ok (Record.set result aggregate.alias (.int count))) row

/-- The rows that match a specification, with their counts. -/
def selectRows (registry : Registry) (contents : Contents) (spec : QuerySpec) :
    List Record → Except Error (List Record)
  | [] => .ok []
  | row :: rest => do
      if ← rowMatches spec row then
        let result ← withCounts registry contents spec row
        let others ← selectRows registry contents spec rest
        .ok (result :: others)
      else selectRows registry contents spec rest

/-- Number of rows that match a specification. -/
def countRows (spec : QuerySpec) : List Record → Except Error Nat
  | [] => .ok 0
  | row :: rest => do
      let holds ← rowMatches spec row
      let others ← countRows spec rest
      .ok (if holds then others + 1 else others)

/-- The rows from an offset on and up to a limit. -/
def window (offset limit : Option Int) (rows : List Record) : List Record :=
  let start := offset.getD 0
  match limit with
  | none => sliceFrom rows start
  | some limit => sliceBetween rows start (start + limit)

/-- The names of the columns and counts of a result. -/
def resultNames (spec : QuerySpec) : List String :=
  distinctNames (spec.selectedColumns ++ spec.aggregateAliases)

/-- The result of a specification: matching rows in order, cut to a window, with the selected
columns. -/
def fetchRows (registry : Registry) (contents : Contents) (spec : QuerySpec)
    (offset limit : Option Int) : Except Error (List Record) := do
  let rows ← selectRows registry contents spec (contents.table spec.resource.name).rows
  if rows.any fun row => !Record.has row spec.resource.keyName then
    .error (.lookup (.column spec.resource.keyName))
  else
    let byKey ← Record.sortBy spec.resource.keyName .ascending rows
    let sorted ← Record.sortByAll spec.sorts byKey
    .ok ((window offset limit sorted).map fun row => Record.project row (resultNames spec))

/-! ## Writing -/

/-- The first set of unique columns in which a row repeats the values of another row. Null repeats
nothing. -/
def repeated? (resource : Resource) (table : Table) (key : Value) (row : Record) :
    Option (List String) :=
  resource.model.uniqueColumnSets.find? fun columns =>
    let values := columns.map row.get
    !(values.any Value.isNull) &&
      table.any fun entry => !entry.1.same key && Value.sameItems (columns.map entry.2.get) values

/-- Fails when a row repeats unique values. -/
def checkUnique (resource : Resource) (table : Table) (key : Value) (row : Record) :
    Except Error Unit :=
  match repeated? resource table key row with
  | some columns => .error (.value (.duplicateValues (row.project columns) resource.name))
  | none => .ok ()

/-- The whole number that a key stands for in the sequence of keys. -/
def keyNumber? : Value → Option Int
  | .int number => some number
  | .bool flag => some (if flag then 1 else 0)
  | _ => none

/-- Adds a row: its key and the contents after that. A row without a key gets the next unused
one. -/
def insert (contents : Contents) (resource : Resource) (values : Record) :
    Except Error (Value × Contents) := do
  let given := resource.model.rowOf values
  let table := contents.table resource.name
  let key :=
    match given.get resource.keyName with
    | .null => .int (table.freeKey (contents.sequence resource.name + 1) table.length)
    | key => key
  let row := given.set resource.keyName key
  if !key.isKey then .error (.plain .type)
  else if table.hasKey key then .error (.value (.duplicateKey resource.keyName key))
  else
    checkUnique resource table key row
    let written := contents.withTable resource.name (table ++ [(key, row)])
    match keyNumber? key with
    | some number => .ok (key, written.withKeyUsed resource.name number)
    | none => .ok (key, written)

/-- Changes a row: the number of changed rows and the contents after that. -/
def update (contents : Contents) (resource : Resource) (key : Value) (changes : Record) :
    Except Error (Int × Contents) := do
  let table := contents.table resource.name
  if changes.isEmpty then .ok (0, contents)
  else if !key.isKey then .error (.plain .type)
  else
    match table.find? key with
    | none => .ok (0, contents)
    | some row =>
        let updated := row.merge changes
        checkUnique resource table key updated
        .ok (1, contents.withTable resource.name (table.replace key updated))

/-- Removes a row: the number of removed rows and the contents after that. -/
def delete (contents : Contents) (resource : Resource) (key : Value) : Except Error (Int × Contents) :=
  let table := contents.table resource.name
  if !key.isKey then .error (.plain .type)
  else if table.hasKey key then .ok (1, contents.withTable resource.name (table.remove key))
  else .ok (0, contents)

end Contents

/-- A store in memory: its contents, and the contents from before the open transaction. Every operation
holds the lock of the store, and a transaction holds it from its opening on. -/
structure Memory where
  contents : Contents := {}
  snapshot : Option Contents := none
  /-- How often the lock is held. -/
  locks : Nat := 0
deriving Repr, Inhabited

namespace Memory

/-- The store with its lock held once more. -/
def acquire (memory : Memory) : Memory := { memory with locks := memory.locks + 1 }

/-- The store with its lock held once less. -/
def release (memory : Memory) : Memory := { memory with locks := memory.locks - 1 }

@[simp] theorem release_acquire (memory : Memory) : memory.acquire.release = memory := rfl

@[simp] theorem contents_acquire (memory : Memory) : memory.acquire.contents = memory.contents := rfl

@[simp] theorem snapshot_acquire (memory : Memory) : memory.acquire.snapshot = memory.snapshot := rfl

/-- Runs an action while the lock is held. -/
def locked {α : Type} (action : Action Memory α) : Action Memory α := fun memory =>
  let (result, after) := action memory.acquire
  (result, after.release)

/-- Answers a question about the contents. -/
def read {α : Type} (question : Contents → Except Error α) : Action Memory α :=
  locked fun memory => (question memory.contents, memory)

/-- Changes the contents; nothing is changed when that fails. -/
def write {α : Type} (change : Contents → Except Error (α × Contents)) : Action Memory α :=
  locked fun memory =>
    match change memory.contents with
    | .ok (result, contents) => (.ok result, { memory with contents })
    | .error error => (.error error, memory)

/-- Opens a transaction. -/
def begin : Action Memory Unit := fun memory =>
  let held := memory.acquire
  match held.snapshot with
  | some _ => (.error (.transaction .alreadyActive), held.release)
  | none => (.ok (), { held with snapshot := some held.contents })

/-- Closes the transaction. -/
def close : Action Memory Unit := fun memory =>
  match memory.snapshot with
  | some _ => (.ok (), { memory with snapshot := none }.release)
  | none => (.error (.transaction .noneActive), memory)

/-- Closes the transaction and keeps its writes. -/
def commit : Action Memory Unit := close

/-- Closes the transaction and takes its writes back. -/
def rollback : Action Memory Unit := fun memory =>
  close { memory with contents := memory.snapshot.getD memory.contents }

/-- A question changes nothing. -/
theorem read_apply {α : Type} (question : Contents → Except Error α) (memory : Memory) :
    read question memory = (question memory.contents, memory) := rfl

/-- A change puts new contents into the store, or leaves it as it was. -/
theorem write_apply {α : Type} (change : Contents → Except Error (α × Contents)) (memory : Memory) :
    write change memory =
      match change memory.contents with
      | .ok (result, contents) => (.ok result, { memory with contents })
      | .error error => (.error error, memory) := by
  unfold write locked
  simp only [contents_acquire]
  cases change memory.contents <;> rfl

instance : Store Memory where
  fetchRows registry spec offset limit :=
    read fun contents => contents.fetchRows registry spec offset limit
  count _ spec :=
    read fun contents => (Contents.countRows spec (contents.table spec.resource.name).rows).map Int.ofNat
  insert resource values := write fun contents => contents.insert resource values
  update resource key changes := write fun contents => contents.update resource key changes
  delete resource key := write fun contents => contents.delete resource key
  begin := begin
  commit := commit
  rollback := rollback
  inTransaction memory := memory.snapshot.isSome
  prepare _ _ := pure ()

end Memory

end ResourceServer
