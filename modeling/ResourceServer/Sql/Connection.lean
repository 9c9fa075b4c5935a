import ResourceServer.Sql.Database
import ResourceServer.Store.Loading

/-!
# Store in a database

A connection sends statements to a database and keeps a list of those it has sent. While no transaction is
open, each statement stands for itself. When adding a row fails inside a transaction, everything written
in it is taken back at once, and nothing more can be sent until the transaction is closed.
-/

namespace ResourceServer.Sql

/-- An open transaction: the database from before it, and whether statements can still be sent. -/
structure OpenTransaction where
  before : Database
  isActive : Bool := true
deriving Repr, Inhabited

/-- A statement that was sent, with its prepared parameters. -/
structure Sent where
  text : String
  parameters : List Value
deriving Repr, Inhabited

/-- A connection to a database. -/
structure Connection where
  database : Database := []
  transaction : Option OpenTransaction := none
  sent : List Sent := []
deriving Repr, Inhabited

namespace Connection

/-- Fails when nothing can be sent. -/
def requireActive : Action Connection Unit := fun connection =>
  match connection.transaction with
  | some transaction =>
      (if transaction.isActive then .ok () else .error (.plain .session), connection)
  | none => (.ok (), connection)

/-- Keeps a statement in the list of those that were sent. -/
def note (sent : Sent) : Action Connection Unit := fun connection =>
  (.ok (), { connection with sent := connection.sent ++ [sent] })

/-- Sends a statement, prepared value by value, and runs it on the database. -/
def send {σ : Type → Type} [Statement σ] {α : Type} (statement : σ Operand)
    (run : σ Cell → Database → Except Error (α × Database)) : Action Connection α := do
  requireActive
  let prepared ← Action.ofExcept (Statement.mapParameters Operand.prepare statement)
  note ⟨Statement.text prepared, Statement.parameters prepared⟩
  let cells ← Action.ofExcept (Statement.mapParameters Cell.ofValue prepared)
  let connection ← get
  let (result, database) ← Action.ofExcept (run cells connection.database)
  set { connection with database }
  pure result

/-- Sends a statement that changes nothing. -/
def ask {σ : Type → Type} [Statement σ] {α : Type} (statement : σ Operand)
    (run : σ Cell → Database → Except Error α) : Action Connection α :=
  send statement fun cells database => (run cells database).map fun result => (result, database)

/-- The rows that a specification asks for. -/
def fetchRows (registry : Registry) (spec : QuerySpec) (offset limit : Option Int) :
    Action Connection (List Record) := do
  let query ← Action.ofExcept (Select.ofSpec registry spec offset limit)
  ask query Select.run

/-- Number of rows that match a specification. -/
def count (spec : QuerySpec) : Action Connection Int := do
  let query ← Action.ofExcept (Count.ofSpec spec)
  ask query Count.run

/-- Takes back what the open transaction has written, and lets nothing more be sent in it. -/
def abandon (connection : Connection) : Connection :=
  match connection.transaction with
  | some transaction =>
      { connection with
        database := transaction.before
        transaction := some { transaction with isActive := false } }
  | none => connection

/-- Adds a row; yields its key. A failure abandons the open transaction. -/
def insert (resource : Resource) (values : Record) : Action Connection Value := do
  match ← (send (Insert.ofValues resource values) Insert.run).attempt with
  | .ok number => pure (insertedKey resource values number)
  | .error error => do
      modify abandon
      throw error

/-- Changes the row of a key; yields how many rows were changed. Without changes nothing is sent. -/
def update (resource : Resource) (key : Value) (changes : Record) : Action Connection Int := do
  if changes.isEmpty then pure 0
  else
    let test ← Action.ofExcept (keyTest resource key)
    requireActive
    let statement ← Action.ofExcept (Update.ofValues resource test changes)
    send statement Update.run

/-- Removes the row of a key; yields how many rows were removed. -/
def delete (resource : Resource) (key : Value) : Action Connection Int := do
  let test ← Action.ofExcept (keyTest resource key)
  send ({ model := resource.model, test } : Delete Operand) Delete.run

/-- Opens a transaction. -/
def begin : Action Connection Unit := fun connection =>
  match connection.transaction with
  | some _ => (.error (.transaction .alreadyActive), connection)
  | none => (.ok (), { connection with transaction := some { before := connection.database } })

/-- Closes the transaction and keeps its writes, unless it was abandoned. -/
def commit : Action Connection Unit := fun connection =>
  match connection.transaction with
  | none => (.error (.transaction .noneActive), connection)
  | some transaction =>
      (if transaction.isActive then .ok () else .error (.transaction .abandoned),
        { connection with transaction := none })

/-- Closes the transaction and takes its writes back. -/
def rollback : Action Connection Unit := fun connection =>
  match connection.transaction with
  | none => (.error (.transaction .noneActive), connection)
  | some transaction =>
      (.ok (), { connection with database := transaction.before, transaction := none })

/-- Makes the tables that are missing. What the open transaction has written until then stays. -/
def prepare (models : List Model) : Action Connection Unit := fun connection =>
  (.ok (),
    { connection with
      database := connection.database.prepared models
      transaction := connection.transaction.map fun transaction =>
        if transaction.isActive then { transaction with before := connection.database.prepared models }
        else { transaction with before := transaction.before.prepared models } })

/-- Takes the list of sent statements out. -/
def takeSent (connection : Connection) : List Sent × Connection :=
  (connection.sent, { connection with sent := [] })

end Connection

instance : Store Connection where
  fetchRows := Connection.fetchRows
  count _ spec := Connection.count spec
  insert := Connection.insert
  update := Connection.update
  delete := Connection.delete
  begin := Connection.begin
  commit := Connection.commit
  rollback := Connection.rollback
  inTransaction connection := connection.transaction.isSome
  prepare registry models := Connection.prepare (models.getD (registry.resources.map Resource.model))

end ResourceServer.Sql
