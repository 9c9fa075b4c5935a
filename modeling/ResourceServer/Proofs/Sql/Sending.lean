import ResourceServer.Proofs.Memory.Selection
import ResourceServer.Proofs.Sql.Outcome

/-!
# Sending a query

A statement is prepared first and sent afterwards.  Both steps go through the conditions that the
statement states, and what it states once is stated again as it stands, so a query whose parameters
can be sent runs with the cells of these conditions.  Asking a database changes nothing in it.
-/

namespace ResourceServer.Sql

namespace Condition

section

variable {π ρ : Type} {step : π → Except Error ρ}

theorem isNever_mapParameters {condition : Condition π} {changed : Condition ρ}
    (done : mapParameters step condition = .ok changed) : changed.isNever = condition.isNever := by
  cases condition with
  | constant holds =>
      cases done
      cases holds <;> rfl
  | test _ | all _ | any _ =>
      obtain ⟨_, _, rfl⟩ := map_eq_ok.mp done
      rfl

theorem isVacuous_mapParameters {condition : Condition π} {changed : Condition ρ}
    (done : mapParameters step condition = .ok changed) :
    changed.isVacuous = condition.isVacuous := by
  cases condition with
  | constant holds =>
      cases done
      rfl
  | test _ | any _ =>
      obtain ⟨_, _, rfl⟩ := map_eq_ok.mp done
      rfl
  | all conditions =>
      obtain ⟨members, changedMembers, rfl⟩ := map_eq_ok.mp done
      cases conditions with
      | nil =>
          cases changedMembers
          rfl
      | cons condition conditions =>
          obtain ⟨_, _, _, _, rfl⟩ := mapParametersOf_cons_eq_ok.mp changedMembers
          rfl

/-- Conditions that are stated as they stand: a constant alone, or none that never holds or restricts
nothing. -/
def IsStated (conditions : List (Condition π)) : Prop :=
  (∃ holds, conditions = [constant holds]) ∨
    ∀ condition ∈ conditions, condition.isNever = false ∧ condition.isVacuous = false

theorem stated_isStated (conditions : List (Condition π)) : IsStated (stated conditions) := by
  unfold stated
  split
  · exact .inl ⟨false, rfl⟩
  · rename_i never
    rw [Bool.not_eq_true, List.any_eq_false] at never
    split
    · split
      · exact .inr nofun
      · exact .inl ⟨true, rfl⟩
    · refine .inr fun condition member => ?_
      obtain ⟨given, restricts⟩ := List.mem_filter.mp member
      exact ⟨by simpa using never condition given, by simpa using restricts⟩

theorem IsStated.stated_eq {conditions : List (Condition π)} (isStated : IsStated conditions) :
    stated conditions = conditions := by
  cases isStated with
  | inl single =>
      obtain ⟨holds, rfl⟩ := single
      cases holds <;> rfl
  | inr restrict =>
      have never : conditions.any isNever = false := by
        rw [List.any_eq_false]
        intro condition member
        simp [(restrict condition member).1]
      have kept : conditions.filter (fun condition => !condition.isVacuous) = conditions := by
        rw [List.filter_eq_self]
        intro condition member
        simp [(restrict condition member).2]
      unfold stated
      rw [never, kept, if_neg Bool.false_ne_true]
      cases conditions <;> rfl

theorem IsStated.mapParametersOf {conditions : List (Condition π)} {changed : List (Condition ρ)}
    (isStated : IsStated conditions) (done : mapParametersOf step conditions = .ok changed) :
    IsStated changed := by
  cases isStated with
  | inl single =>
      obtain ⟨holds, rfl⟩ := single
      cases done
      exact .inl ⟨holds, rfl⟩
  | inr restrict =>
      right
      induction conditions generalizing changed with
      | nil =>
          cases done
          nofun
      | cons condition conditions induction =>
          obtain ⟨first, others, one, rest, rfl⟩ := mapParametersOf_cons_eq_ok.mp done
          rw [List.forall_mem_cons] at restrict ⊢
          refine ⟨?_, induction rest restrict.2⟩
          rw [isNever_mapParameters one, isVacuous_mapParameters one]
          exact restrict.1

end

/-- What can be sent can be prepared, stated again and sent then. -/
theorem sent_stated {conditions : List (Condition Operand)} {cells : List (Condition Cell)}
    (sent : mapParametersOf Operand.toCell (stated conditions) = .ok cells) :
    ∃ prepared, mapParametersOf Operand.prepare (stated conditions) = .ok prepared ∧
      mapParametersOf Cell.ofValue (stated prepared) = .ok cells := by
  obtain ⟨prepared, isPrepared, isSent⟩ :=
    divides_mapParametersOf (divides_bind Operand.prepare Cell.ofValue) _ cells sent
  refine ⟨prepared, isPrepared, ?_⟩
  rw [((stated_isStated conditions).mapParametersOf isPrepared).stated_eq]
  exact isSent

end Condition

/-! ## Windows -/

theorem toCell_numberOperand {number : Int} (fits : fitsWord number = true) :
    (numberOperand number).toCell = .ok (.integer number) := by
  simp [numberOperand, Operand.toCell, Operand.prepare, bind, Except.bind, Cell.ofValue, fits]

theorem divides_mapWindow {π ρ τ : Type} {whole : π → Except Error τ} {first : π → Except Error ρ}
    {second : ρ → Except Error τ} (divides : Divides whole first second) :
    Divides (mapWindow whole) (mapWindow first) (mapWindow second) := by
  intro window last done
  cases window with
  | none => exact ⟨none, rfl, done⟩
  | some window =>
      obtain ⟨limit, sentLimit, done⟩ := bind_eq_ok.mp done
      obtain ⟨offset, sentOffset, done⟩ := bind_eq_ok.mp done
      obtain ⟨middleLimit, begunLimit, endedLimit⟩ := divides _ _ sentLimit
      obtain ⟨middleOffset, begunOffset, endedOffset⟩ := divides _ _ sentOffset
      refine ⟨some ⟨middleLimit, middleOffset⟩, ?_, ?_⟩
      · rw [mapWindow, begunLimit, begunOffset]
        rfl
      · rw [mapWindow, endedLimit, endedOffset]
        exact done

/-- The part of a list that a sent window shows. -/
def shown {α : Type} (window : Option (Window Cell)) (items : List α) : List α :=
  match window with
  | some window => window.apply items
  | none => items

/-- The part of a list from an offset on and up to a limit, where a negative offset is zero and a
negative limit is none. -/
def part {α : Type} (offset limit : Option Int) (items : List α) : List α :=
  let rest := items.drop (offset.getD 0).toNat
  match limit with
  | none => rest
  | some limit => if limit < 0 then rest else rest.take limit.toNat

/-- A window of numbers that fit into words can be sent, and shows its part of a list. -/
theorem mapWindow_windowOf {offset limit : Option Int} (offsetFits : offset.all fitsWord = true)
    (limitFits : limit.all fitsWord = true) :
    ∃ window, mapWindow Operand.toCell (windowOf offset limit) = .ok window ∧
      ∀ {α : Type} (items : List α), shown window items = part offset limit items := by
  have startFits : fitsWord (offset.getD 0) = true := by
    cases offset with
    | none => decide
    | some offset => exact offsetFits
  have limitedFits : fitsWord (limit.getD (-1)) = true := by
    cases limit with
    | none => decide
    | some limit => exact limitFits
  have sent : mapWindow Operand.toCell
      (some ⟨numberOperand (limit.getD (-1)), numberOperand (offset.getD 0)⟩) =
        .ok (some ⟨.integer (limit.getD (-1)), .integer (offset.getD 0)⟩) := by
    rw [mapWindow, toCell_numberOperand limitedFits, toCell_numberOperand startFits]
    rfl
  have shows : ∀ {α : Type} (items : List α),
      shown (some ⟨.integer (limit.getD (-1)), .integer (offset.getD 0)⟩) items =
        part offset limit items := by
    intro α items
    cases limit <;> rfl
  unfold windowOf
  split
  · rename_i start
    refine ⟨none, rfl, fun items => ?_⟩
    rw [part, start]
    rfl
  · exact ⟨_, sent, shows⟩

/-- In memory the same part is shown when the negative numbers are replaced. -/
theorem window_eq_part (offset limit : Option Int) (rows : List Record) :
    Contents.window (offset.map (max 0)) (limit.filter fun limit => 0 ≤ limit) rows =
      part offset limit rows := by
  have start : (offset.map (max 0)).getD 0 = max 0 (offset.getD 0) := by
    cases offset <;> rfl
  have nonneg : 0 ≤ max 0 (offset.getD 0) := Int.le_max_left _ _
  have same : (max 0 (offset.getD 0)).toNat = (offset.getD 0).toNat := by omega
  unfold Contents.window part
  rw [start]
  cases limit with
  | none =>
      change sliceFrom rows (max 0 (offset.getD 0)) = _
      rw [sliceFrom_of_nonneg nonneg, same]
  | some limit =>
      by_cases negative : limit < 0
      · have dropped : (some limit).filter (fun limit => decide (0 ≤ limit)) = none := by
          simp [negative]
        rw [dropped]
        change sliceFrom rows (max 0 (offset.getD 0)) = if limit < 0 then _ else _
        rw [sliceFrom_of_nonneg nonneg, same, if_pos negative]
      · have limited : 0 ≤ limit := by omega
        have kept : (some limit).filter (fun limit => decide (0 ≤ limit)) = some limit := by
          simp [limited]
        rw [kept]
        change sliceBetween rows (max 0 (offset.getD 0)) (max 0 (offset.getD 0) + limit) =
          if limit < 0 then _ else _
        rw [sliceBetween_of_nonneg nonneg limited, same, if_neg negative]

/-! ## Asking -/

section Asking

variable {connection : Connection}

theorem perform_requireActive
    (active : connection.transaction.all OpenTransaction.isActive = true) :
    Connection.requireActive.perform connection = (.ok (), connection) := by
  obtain ⟨database, transaction, sent⟩ := connection
  cases transaction with
  | none => rfl
  | some transaction =>
      change (if transaction.isActive then _ else _, _) = _
      rw [if_pos (by exact active)]

/-- Sending when statements can be sent notes the statement, and runs it on the database. -/
theorem perform_send {σ : Type → Type} [Statement σ] {α : Type} {statement : σ Operand}
    {prepared : σ Value} {cells : σ Cell} (run : σ Cell → Database → Except Error (α × Database))
    (active : connection.transaction.all OpenTransaction.isActive = true)
    (isPrepared : Statement.mapParameters Operand.prepare statement = .ok prepared)
    (isSent : Statement.mapParameters Cell.ofValue prepared = .ok cells) :
    ∃ noted, (Connection.send statement run).perform connection =
      match run cells connection.database with
      | .ok (result, database) =>
          (.ok result, { connection with database, sent := connection.sent ++ [noted] })
      | .error error => (.error error, { connection with sent := connection.sent ++ [noted] }) := by
  refine ⟨⟨Statement.text prepared, Statement.parameters prepared⟩, ?_⟩
  unfold Connection.send
  rw [Action.perform_bind_ok (perform_requireActive active), isPrepared]
  change Action.perform (Action.ofExcept (Statement.mapParameters Cell.ofValue prepared) >>= _) _ = _
  rw [isSent]
  change Action.perform (Action.ofExcept (run cells connection.database) >>= _) _ = _
  cases run cells connection.database with
  | error error => rfl
  | ok outcome => rfl

/-- What is prepared and cannot be sent is only noted. -/
theorem perform_send_refused {σ : Type → Type} [Statement σ] {α : Type} {statement : σ Operand}
    {prepared : σ Value} {error : Error} (run : σ Cell → Database → Except Error (α × Database))
    (active : connection.transaction.all OpenTransaction.isActive = true)
    (isPrepared : Statement.mapParameters Operand.prepare statement = .ok prepared)
    (refused : Statement.mapParameters Cell.ofValue prepared = .error error) :
    ∃ noted, (Connection.send statement run).perform connection =
      (.error error, { connection with sent := connection.sent ++ [noted] }) := by
  refine ⟨⟨Statement.text prepared, Statement.parameters prepared⟩, ?_⟩
  unfold Connection.send
  rw [Action.perform_bind_ok (perform_requireActive active), isPrepared]
  change Action.perform (Action.ofExcept (Statement.mapParameters Cell.ofValue prepared) >>= _) _ = _
  rw [refused]
  rfl

/-- Asking when statements can be sent yields what the statement yields, and only notes it. -/
theorem perform_ask {σ : Type → Type} [Statement σ] {α : Type} {statement : σ Operand}
    (prepared : σ Value) {cells : σ Cell} {run : σ Cell → Database → Except Error α} {result : α}
    (active : connection.transaction.all OpenTransaction.isActive = true)
    (isPrepared : Statement.mapParameters Operand.prepare statement = .ok prepared)
    (isSent : Statement.mapParameters Cell.ofValue prepared = .ok cells)
    (ran : run cells connection.database = .ok result) :
    ∃ noted, (Connection.ask statement run).perform connection =
      (.ok result, { connection with sent := connection.sent ++ [noted] }) := by
  obtain ⟨noted, performed⟩ := perform_send
    (fun cells database => (run cells database).map fun result => (result, database)) active
    isPrepared isSent
  refine ⟨noted, ?_⟩
  rw [Connection.ask, performed, ran]
  rfl

/-- A selection whose conditions and window can be sent. -/
theorem perform_ask_select {query : Select Operand} {cells : List (Condition Cell)}
    {window : Option (Window Cell)} {rows : List Record}
    (active : connection.transaction.all OpenTransaction.isActive = true)
    (sent : Condition.mapParametersOf Operand.toCell (Condition.stated query.conditions) = .ok cells)
    (windowed : mapWindow Operand.toCell query.window = .ok window)
    (ran : Select.run ⟨query.model, query.columns, query.counts, cells, query.order, window⟩
      connection.database = .ok rows) :
    ∃ noted, (Connection.ask query Select.run).perform connection =
      (.ok rows, { connection with sent := connection.sent ++ [noted] }) := by
  obtain ⟨prepared, isPrepared, isSent⟩ := Condition.sent_stated sent
  obtain ⟨middle, begun, ended⟩ :=
    divides_mapWindow (divides_bind Operand.prepare Cell.ofValue) _ _ windowed
  refine perform_ask
    ⟨query.model, query.columns, query.counts, prepared, query.order, middle⟩ active ?_ ?_ ran
  · change (Condition.mapParametersOf Operand.prepare (Condition.stated query.conditions) >>= _) = _
    rw [isPrepared]
    change (mapWindow Operand.prepare query.window >>= _) = _
    rw [begun]
    rfl
  · change (Condition.mapParametersOf Cell.ofValue (Condition.stated prepared) >>= _) = _
    rw [isSent]
    change (mapWindow Cell.ofValue middle >>= _) = _
    rw [ended]
    rfl

/-- A count whose conditions can be sent. -/
theorem perform_ask_count {query : Count Operand} {cells : List (Condition Cell)} {number : Int}
    (active : connection.transaction.all OpenTransaction.isActive = true)
    (sent : Condition.mapParametersOf Operand.toCell (Condition.stated query.conditions) = .ok cells)
    (ran : Count.run ⟨query.model, cells⟩ connection.database = .ok number) :
    ∃ noted, (Connection.ask query Count.run).perform connection =
      (.ok number, { connection with sent := connection.sent ++ [noted] }) := by
  obtain ⟨prepared, isPrepared, isSent⟩ := Condition.sent_stated sent
  refine perform_ask ⟨query.model, prepared⟩ active ?_ ?_ ran
  · change (Condition.mapParametersOf Operand.prepare (Condition.stated query.conditions) >>= _) = _
    rw [isPrepared]
    rfl
  · change (Condition.mapParametersOf Cell.ofValue (Condition.stated prepared) >>= _) = _
    rw [isSent]
    rfl

end Asking

end ResourceServer.Sql
