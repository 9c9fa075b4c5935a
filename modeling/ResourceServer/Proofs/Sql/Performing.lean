import ResourceServer.Proofs.Sql.Asking

/-!
# Sending what is written

A statement that adds, changes or removes rows is prepared and sent part by part, and it runs on one table.
Adding a row sends the cells of its columns; changing and removing one send the test for its key, and
what is no key can be prepared, but it is not sent.
-/

namespace ResourceServer.Sql

section

variable {π ρ τ : Type} {whole : π → Except Error τ} {first : π → Except Error ρ}
  {second : ρ → Except Error τ}

theorem Divides.written (divides : Divides whole first second) :
    Divides (fun entry : Column × π => (whole entry.2).map fun changed => (entry.1, changed))
      (fun entry : Column × π => (first entry.2).map fun changed => (entry.1, changed))
      (fun entry : Column × ρ => (second entry.2).map fun changed => (entry.1, changed)) := by
  rintro ⟨column, parameter⟩ last done
  obtain ⟨last, changed, rfl⟩ := map_eq_ok.mp done
  obtain ⟨middle, begun, ended⟩ := divides parameter last changed
  exact ⟨(column, middle), map_eq_ok.mpr ⟨middle, begun, rfl⟩, map_eq_ok.mpr ⟨last, ended, rfl⟩⟩

theorem divides_mapWritten (divides : Divides whole first second) :
    Divides (mapWritten whole) (mapWritten first) (mapWritten second) :=
  divides.written.mapM

end

section

variable {π ρ : Type} {step : π → Except Error ρ} (model : Model)

theorem mapParameters_insert (values : List (Column × π)) :
    Statement.mapParameters step (⟨model, values⟩ : Insert π) =
      (mapWritten step values).map fun written => ⟨model, written⟩ := by
  change (mapWritten step values >>= _) = _
  cases mapWritten step values <;> rfl

theorem mapParameters_update {changes : List (Column × π)} {changed : List (Column × ρ)}
    (written : mapWritten step changes = .ok changed) (test : Test π) :
    Statement.mapParameters step (⟨model, changes, test⟩ : Update π) =
      (test.mapParameters step).map fun mapped => ⟨model, changed, mapped⟩ := by
  change (mapWritten step changes >>= _) = _
  rw [written]
  change (test.mapParameters step >>= _) = _
  cases test.mapParameters step <;> rfl

theorem mapParameters_delete (test : Test π) :
    Statement.mapParameters step (⟨model, test⟩ : Delete π) =
      (test.mapParameters step).map fun mapped => ⟨model, mapped⟩ := by
  change (test.mapParameters step >>= _) = _
  cases test.mapParameters step <;> rfl

end

/-- The outcome of sending what is written to one table. -/
def Connection.written {α β : Type} (connection : Connection) (noted : Sent) (answer : β → α) :
    Except Error (β × Table) → Except Error α × Connection
  | .ok (value, after) =>
      (.ok (answer value),
        { connection with
          database := connection.database.withTable after
          sent := connection.sent ++ [noted] })
  | .error error => (.error error, { connection with sent := connection.sent ++ [noted] })

section

variable {resource : Resource} {connection : Connection} {table : Table} {values changes : Record}
  {key : Value} {column : Column} {cells : List (Column × Cell)} {test : Test Cell}

theorem active_of_none (noneOpen : connection.transaction = none) :
    connection.transaction.all OpenTransaction.isActive = true := by
  rw [noneOpen]
  rfl

/-- Adding a row, when its cells can be sent. -/
theorem perform_insert (noneOpen : connection.transaction = none)
    (found : connection.database.lookup resource.model.table = some table)
    (isSent : mapWritten Operand.toCell (Insert.ofValues resource values).values = .ok cells) :
    ∃ noted, (Connection.insert resource values).perform connection =
      connection.written noted (insertedKey resource values) (table.insert cells) := by
  obtain ⟨prepared, begun, ended⟩ :=
    divides_mapWritten (divides_bind Operand.prepare Cell.ofValue) _ _ isSent
  have isPrepared : Statement.mapParameters Operand.prepare (Insert.ofValues resource values) =
      .ok ⟨resource.model, prepared⟩ :=
    (mapParameters_insert _ (Insert.ofValues resource values).values).trans (by rw [begun]; rfl)
  obtain ⟨noted, performed⟩ := perform_send Insert.run (active_of_none noneOpen) isPrepared
    ((mapParameters_insert _ prepared).trans (by rw [ended]; rfl))
  refine ⟨noted, ?_⟩
  have ran : Insert.run ⟨resource.model, cells⟩ connection.database =
      (table.insert cells).map fun written =>
        (written.1, connection.database.withTable written.2) := by
    unfold Insert.run Database.table
    rw [found]
    change (table.insert cells >>= _) = _
    cases table.insert cells <;> rfl
  obtain ⟨database, transaction, earlier⟩ := connection
  cases noneOpen
  unfold Connection.insert
  rw [Action.perform_bind_ok (Action.perform_attempt _ _), performed, ran]
  cases table.insert cells <;> rfl

theorem keyTest_eq (counted : resource.IsCounted) (isColumn : column ∈ resource.model.columns)
    (named : column.name = resource.keyName) (key : Value) :
    keyTest resource key = .ok (equalityTest column true key) := by
  rw [keyTest, queryColumn, ← named, counted.column?_eq isColumn]
  rfl

/-- The columns that changes are written to. -/
abbrev changedColumns (resource : Resource) (changes : Record) : List (Column × Operand) :=
  resource.model.columns.filterMap fun column =>
    (changes.get? column.name).map fun value => (column, Operand.written column value)

theorem ofValues_changes (takes : TakesChanges resource changes) (test : Test Operand) :
    Update.ofValues resource test changes =
      .ok ⟨resource.model, changedColumns resource changes, test⟩ := by
  have areColumns : (changes.any fun change => !resource.model.hasColumn change.1) = false := by
    rw [List.any_eq_false]
    intro change isChange
    obtain ⟨_, column, isColumn, named, _⟩ := takes.each change isChange
    have isName : change.1 ∈ resource.model.columnNames :=
      List.mem_map.mpr ⟨column, isColumn, named⟩
    rw [Model.hasColumn, List.contains_iff_mem.mpr isName]
    exact Bool.false_ne_true
  unfold Update.ofValues
  rw [areColumns]
  rfl

/-- Changing a row is sending the statement for its key. -/
theorem perform_update_eq (counted : resource.IsCounted) (takes : TakesChanges resource changes)
    (notEmpty : changes.isEmpty = false) (noneOpen : connection.transaction = none)
    (isColumn : column ∈ resource.model.columns) (named : column.name = resource.keyName) :
    (Connection.update resource key changes).perform connection =
      (Connection.send (⟨resource.model, changedColumns resource changes,
        equalityTest column true key⟩ : Update Operand) Update.run).perform connection := by
  unfold Connection.update
  rw [notEmpty, if_neg Bool.false_ne_true, keyTest_eq counted isColumn named, Action.ofExcept_ok,
    pure_bind, Action.perform_bind_ok (perform_requireActive (active_of_none noneOpen)),
    ofValues_changes takes, Action.ofExcept_ok, pure_bind]

/-- Changing a row, when the cells of the changes and of the test can be sent. -/
theorem perform_update (counted : resource.IsCounted) (takes : TakesChanges resource changes)
    (notEmpty : changes.isEmpty = false) (noneOpen : connection.transaction = none)
    (found : connection.database.lookup resource.model.table = some table)
    (isColumn : column ∈ resource.model.columns) (named : column.name = resource.keyName)
    (isSent : mapWritten Operand.toCell (changedColumns resource changes) = .ok cells)
    (asks : Asks column key test) :
    ∃ noted, (Connection.update resource key changes).perform connection =
      connection.written noted id
        (((table.passing test).foldlM (Table.change cells) table).map fun after =>
          (((table.passing test).length : Int), after)) := by
  obtain ⟨prepared, begun, ended⟩ :=
    divides_mapWritten (divides_bind Operand.prepare Cell.ofValue) _ _ isSent
  obtain ⟨preparedTest, begunTest, endedTest⟩ :=
    Test.divides_mapParameters (divides_bind Operand.prepare Cell.ofValue) _ _ asks.sent
  obtain ⟨noted, performed⟩ := perform_send Update.run (active_of_none noneOpen)
    ((mapParameters_update resource.model begun _).trans (by rw [begunTest]; rfl))
    ((mapParameters_update _ ended _).trans (by rw [endedTest]; rfl))
  have ran : Update.run ⟨resource.model, cells, test⟩ connection.database =
      ((table.passing test).foldlM (Table.change cells) table).map fun after =>
        (((table.passing test).length : Int), connection.database.withTable after) := by
    unfold Update.run Database.table
    rw [found]
    change ((table.passing test).foldlM (Table.change cells) table >>= _) = _
    cases (table.passing test).foldlM (Table.change cells) table <;> rfl
  refine ⟨noted, ?_⟩
  rw [perform_update_eq counted takes notEmpty noneOpen isColumn named, performed, ran]
  cases (table.passing test).foldlM (Table.change cells) table <;> rfl

/-- Changing the row of what is no key fails. -/
theorem perform_update_refused (counted : resource.IsCounted)
    (takes : TakesChanges resource changes) (notEmpty : changes.isEmpty = false)
    (noneOpen : connection.transaction = none) (isColumn : column ∈ resource.model.columns)
    (named : column.name = resource.keyName) (isInteger : column.type = .integer)
    (isSent : mapWritten Operand.toCell (changedColumns resource changes) = .ok cells)
    (notKey : key.isKey = false) :
    ∃ error noted, (Connection.update resource key changes).perform connection =
      (.error error, { connection with sent := connection.sent ++ [noted] }) := by
  obtain ⟨prepared, begun, ended⟩ :=
    divides_mapWritten (divides_bind Operand.prepare Cell.ofValue) _ _ isSent
  obtain ⟨preparedTest, error, begunTest, refused⟩ := unsent_of_not_isKey isInteger notKey
  obtain ⟨noted, performed⟩ := perform_send_refused Update.run (active_of_none noneOpen)
    ((mapParameters_update resource.model begun _).trans (by rw [begunTest]; rfl))
    ((mapParameters_update _ ended _).trans (by rw [refused]; rfl))
  refine ⟨error, noted, ?_⟩
  rw [perform_update_eq counted takes notEmpty noneOpen isColumn named, performed]

/-- Removing a row is sending the statement for its key. -/
theorem perform_delete_eq (counted : resource.IsCounted)
    (isColumn : column ∈ resource.model.columns) (named : column.name = resource.keyName) :
    Connection.delete resource key =
      Connection.send (⟨resource.model, equalityTest column true key⟩ : Delete Operand)
        Delete.run := by
  unfold Connection.delete
  rw [keyTest_eq counted isColumn named, Action.ofExcept_ok, pure_bind]

/-- Removing a row, when the cells of the test can be sent. -/
theorem perform_delete (counted : resource.IsCounted) (noneOpen : connection.transaction = none)
    (found : connection.database.lookup resource.model.table = some table)
    (isColumn : column ∈ resource.model.columns) (named : column.name = resource.keyName)
    (asks : Asks column key test) :
    ∃ noted, (Connection.delete resource key).perform connection =
      connection.written noted id (.ok (((table.passing test).length : Int),
        (table.passing test).foldl (fun kept numbered => kept.remove numbered.1) table)) := by
  obtain ⟨prepared, begun, ended⟩ :=
    Test.divides_mapParameters (divides_bind Operand.prepare Cell.ofValue) _ _ asks.sent
  obtain ⟨noted, performed⟩ := perform_send Delete.run (active_of_none noneOpen)
    ((mapParameters_delete resource.model _).trans (by rw [begun]; rfl))
    ((mapParameters_delete _ _).trans (by rw [ended]; rfl))
  have ran : Delete.run ⟨resource.model, test⟩ connection.database =
      .ok (((table.passing test).length : Int), connection.database.withTable
        ((table.passing test).foldl (fun kept numbered => kept.remove numbered.1) table)) := by
    unfold Delete.run Database.table
    rw [found]
    rfl
  refine ⟨noted, ?_⟩
  rw [perform_delete_eq counted isColumn named, performed, ran]
  rfl

/-- Removing the row of what is no key fails. -/
theorem perform_delete_refused (counted : resource.IsCounted)
    (noneOpen : connection.transaction = none) (isColumn : column ∈ resource.model.columns)
    (named : column.name = resource.keyName) (isInteger : column.type = .integer)
    (notKey : key.isKey = false) :
    ∃ error noted, (Connection.delete resource key).perform connection =
      (.error error, { connection with sent := connection.sent ++ [noted] }) := by
  obtain ⟨prepared, error, begun, refused⟩ := unsent_of_not_isKey isInteger notKey
  obtain ⟨noted, performed⟩ := perform_send_refused Delete.run (active_of_none noneOpen)
    ((mapParameters_delete resource.model _).trans (by rw [begun]; rfl))
    ((mapParameters_delete _ _).trans (by rw [refused]; rfl))
  refine ⟨error, noted, ?_⟩
  rw [perform_delete_eq counted isColumn named, performed]

end

end ResourceServer.Sql
