import ResourceServer.Proofs.Resolution.Loading
import ResourceServer.Proofs.Sql.Selecting
import ResourceServer.Sql.Connection

/-!
# Looking names up for a database

A statement is put together from columns, which are looked up by name in the model of a resource:
those of filters, of the search, of the selection, of the order and of the counts.  After that no
name is looked up any more.  A statement may still be refused for its parameters, for the table that
it reads or for the transaction that it is sent in.
-/

namespace ResourceServer.Sql

/-! ## Conditions -/

section Columns

variable {model : Model} {name : String}

theorem filterColumn_resolved (isColumn : name ∈ model.columnNames) :
    Resolved (filterColumn model name) := by
  obtain ⟨column, found⟩ := Model.exists_column? isColumn
  rw [filterColumn, found]
  exact .ok _

theorem queryColumn_resolved (isColumn : name ∈ model.columnNames) :
    Resolved (queryColumn model name) := by
  obtain ⟨column, found⟩ := Model.exists_column? isColumn
  rw [queryColumn, found]
  exact .ok _

theorem queryColumn_name {column : Column} (found : queryColumn model name = .ok column) :
    column.name = name := by
  unfold queryColumn at found
  split at found
  · rename_i isColumn
    cases found
    unfold Model.column? at isColumn
    simpa using List.find?_some isColumn
  · cases found

theorem plainOperand_resolved (column : Column) (value : Value) :
    Resolved (plainOperand column value) := by
  unfold plainOperand
  split
  · exact .error rfl
  · exact .error rfl
  · exact .ok _

theorem membershipTest_resolved (column : Column) (isIn : Bool) (items : List Value) :
    Resolved (membershipTest column isIn items) := by
  unfold membershipTest
  split
  · split
    · exact .ok _
    · exact .error rfl
  · exact .ok _

theorem Test.ofLeaf_resolved {leaf : Filter.Leaf} (isColumn : leaf.field ∈ model.columnNames) :
    Resolved (Test.ofLeaf model leaf) := by
  refine .bind (filterColumn_resolved isColumn) fun column _ => ?_
  dsimp only
  split
  · exact .ok _
  · exact .ok _
  · exact .map (plainOperand_resolved column _) _
  · exact .map (plainOperand_resolved column _) _
  · exact .map (plainOperand_resolved column _) _
  · exact .map (plainOperand_resolved column _) _
  · exact .map (plainOperand_resolved column _) _
  · split
    · exact membershipTest_resolved column true _
    · exact .error rfl
  · split
    · exact membershipTest_resolved column false _
    · exact .error rfl
  · exact .ok _
  · exact .ok _
  · exact .error rfl

namespace Condition

mutual

/-- A filter becomes a condition when its fields are columns. -/
theorem ofNode_resolved (node : Filter.Node) (columns : node.fields ⊆ model.columnNames) :
    Resolved (ofNode model node) := by
  cases node with
  | leaf comparison =>
      rw [ofNode]
      exact .map (Test.ofLeaf_resolved (columns (by simp [Filter.Node.fields]))) _
  | group combinator children =>
      rw [Filter.Node.fields] at columns
      rw [ofNode]
      exact .bind (ofNodes_resolved children columns) fun _ _ => .ok _

theorem ofNodes_resolved (nodes : List Filter.Node)
    (columns : Filter.Node.fieldsOf nodes ⊆ model.columnNames) : Resolved (ofNodes model nodes) := by
  cases nodes with
  | nil => exact .ok _
  | cons node rest =>
      rw [Filter.Node.fieldsOf, List.append_subset] at columns
      rw [ofNodes]
      refine .bind (ofNode_resolved node columns.1) fun condition _ => ?_
      exact .bind (ofNodes_resolved rest columns.2) fun _ _ => .ok _

end

theorem ofSearch_resolved {term : SearchTerm} (columns : term.fields ⊆ model.columnNames) :
    Resolved (ofSearch model term) := by
  refine .bind (.mapM fun field isField => ?_) fun tests _ => ?_
  · exact .bind (filterColumn_resolved (columns isField)) fun _ _ => .ok _
  · split
    · exact .ok _
    · exact .ok _

theorem ofScope_resolved {resource : Resource} (scope : TrashedScope)
    (deletedAt : resource.softDeletes = true → resource.deletedAtColumn ∈ resource.columns) :
    Resolved (ofScope resource scope) := by
  unfold ofScope
  split
  · rename_i softDeletes
    refine .bind (queryColumn_resolved (deletedAt softDeletes)) fun column _ => ?_
    cases scope <;> exact .ok _
  · exact .ok _

theorem ofSpec_resolved {registry : Registry} {spec : QuerySpec}
    (valid : registry.validate = .ok ()) (executable : spec.Executable registry) :
    Resolved (ofSpec spec) := by
  have checked := Registry.checked valid executable.registered
  refine .bind (.mapM fun node member => ofNode_resolved node (executable.wheres node member)) ?_
  intro filters _
  refine .bind (.mapM fun term member => ?_) fun search _ => ?_
  · exact ofSearch_resolved (executable.search term (Option.mem_toList.mp member))
  · exact .bind (ofScope_resolved spec.trashed checked.deletedAt) fun _ _ => .ok _

end Condition

end Columns

/-! ## Statements -/

section Statements

variable {registry : Registry} {spec : QuerySpec}

theorem CountColumn.ofAggregate_resolved (valid : registry.validate = .ok ()) {owner : Resource}
    {aggregate : AggregateRequest}
    (joins : registry.Joins owner aggregate.relation owner.columns) :
    Resolved (CountColumn.ofAggregate registry owner aggregate) := by
  obtain ⟨relation, target, declared, known, inOwner, inTarget⟩ := joins
  have checked := Registry.checked valid (Registry.mem_of_resource known)
  unfold ofAggregate
  refine .bind (declared ▸ .ok _) fun found isFound => ?_
  obtain rfl : relation = found := Except.ok.inj (declared.symm.trans isFound)
  refine .bind (known ▸ .ok _) fun other isOther => ?_
  obtain rfl : target = other := Except.ok.inj (known.symm.trans isOther)
  refine .bind (queryColumn_resolved inTarget) fun targetColumn _ => ?_
  refine .bind (queryColumn_resolved inOwner) fun ownerColumn _ => ?_
  split
  · rename_i softDeletes
    refine .bind (.map (queryColumn_resolved (checked.deletedAt softDeletes)) _) ?_
    exact fun _ _ => .ok _
  · exact .ok _

theorem CountColumn.ofAggregate_label {owner : Resource} {aggregate : AggregateRequest}
    {count : CountColumn} (built : CountColumn.ofAggregate registry owner aggregate = .ok count) :
    count.label = aggregate.alias := by
  unfold ofAggregate at built
  obtain ⟨relation, _, built⟩ := bind_eq_ok.mp built
  obtain ⟨target, _, built⟩ := bind_eq_ok.mp built
  obtain ⟨targetColumn, _, built⟩ := bind_eq_ok.mp built
  obtain ⟨ownerColumn, _, built⟩ := bind_eq_ok.mp built
  dsimp only at built
  split at built
  all_goals
    obtain ⟨liveColumn, _, built⟩ := bind_eq_ok.mp built
    cases built
    rfl

theorem countColumns_resolved (valid : registry.validate = .ok ())
    (executable : spec.Executable registry) : Resolved (countColumns registry spec) :=
  .bind (.mapM fun aggregate member =>
    CountColumn.ofAggregate_resolved valid (executable.aggregates aggregate member)) fun _ _ => .ok _

/-- Every count of a specification is selected under its alias. -/
theorem countColumns_labels {counts : List CountColumn}
    (built : countColumns registry spec = .ok counts) :
    counts.map CountColumn.label = distinctNames spec.aggregateAliases := by
  obtain ⟨all, each, built⟩ := bind_eq_ok.mp built
  cases built
  have labels : all.map CountColumn.label = spec.aggregateAliases :=
    (map_eq_of_forall₂ (mapM_eq_ok.mp each) fun aggregate count built =>
      (CountColumn.ofAggregate_label built).symm).symm
  exact (labels_distinct all []).trans (by rw [labels]; rfl)

theorem SortKey.ofField_resolved {model : Model} {counts : List CountColumn} {field : String}
    (known : field ∈ model.columnNames ∨ field ∈ counts.map CountColumn.label) :
    Resolved (SortKey.ofField model counts field) := by
  unfold ofField
  split
  · exact .ok _
  · rename_i isNoCount
    refine .map (queryColumn_resolved (known.resolve_right ?_)) _
    intro isCount
    obtain ⟨count, member, rfl⟩ := List.mem_map.mp isCount
    have differs := List.find?_eq_none.mp isNoCount count member
    exact differs (beq_self_eq_true _)

/-- The statement for an executable specification can be put together, as far as names go. -/
theorem Select.ofSpec_resolved (valid : registry.validate = .ok ())
    (executable : spec.Executable registry) (offset limit : Option Int) :
    Resolved (Select.ofSpec registry spec offset limit) := by
  have checked := Registry.checked valid executable.registered
  refine .bind (countColumns_resolved valid executable) fun counts counted => ?_
  refine .bind (.mapM fun name member => queryColumn_resolved (executable.selected member)) ?_
  intro columns _
  refine .bind (Condition.ofSpec_resolved valid executable) fun conditions _ => ?_
  refine .bind (.mapM fun directive member => .map (SortKey.ofField_resolved ?_) _) fun sorts _ => ?_
  · rw [countColumns_labels counted, mem_distinctNames]
    exact executable.sorts directive member
  · exact .bind (queryColumn_resolved checked.key) fun _ _ => .ok _

/-- The key is one of the columns that are selected. -/
theorem Select.ofSpec_keyed (valid : registry.validate = .ok ())
    (executable : spec.Executable registry) {offset limit : Option Int} {query : Select Operand}
    (built : Select.ofSpec registry spec offset limit = .ok query) :
    ∃ column ∈ query.columns, column.name = spec.resource.keyName := by
  obtain ⟨counts, _, built⟩ := bind_eq_ok.mp built
  obtain ⟨columns, selected, built⟩ := bind_eq_ok.mp built
  obtain ⟨conditions, _, built⟩ := bind_eq_ok.mp built
  obtain ⟨sorts, _, built⟩ := bind_eq_ok.mp built
  obtain ⟨keyColumn, _, built⟩ := bind_eq_ok.mp built
  cases built
  obtain ⟨column, member, found⟩ :=
    exists_of_mem_left (mapM_eq_ok.mp selected) (executable.selects_key valid)
  exact ⟨column, member, queryColumn_name found⟩

theorem Count.ofSpec_resolved (valid : registry.validate = .ok ())
    (executable : spec.Executable registry) : Resolved (Count.ofSpec spec) :=
  .map (Condition.ofSpec_resolved valid executable) _

end Statements

/-! ## Parameters -/

theorem Operand.prepare_resolved (operand : Operand) : Resolved operand.prepare := by
  unfold prepare
  split
  · exact .ok _
  · exact .ok _
  · split
    · exact .ok _
    · exact .error rfl
  · split
    · exact .ok _
    · exact .error rfl
  · split
    · exact .ok _
    · exact .error rfl
  · exact .ok _
  · exact .error rfl
  · exact .error rfl

theorem Cell.ofValue_resolved (value : Value) : Resolved (Cell.ofValue value) := by
  unfold ofValue
  split
  · exact .ok _
  · exact .ok _
  · split
    · exact .ok _
    · exact .error rfl
  · exact .ok _
  · exact .ok _
  · exact .ok _
  · exact .error rfl
  · exact .error rfl

section Parameters

variable {π ρ : Type} {step : π → Except Error ρ}

theorem Test.mapParameters_resolved (steps : ∀ parameter, Resolved (step parameter))
    (test : Test π) : Resolved (test.mapParameters step) := by
  cases test with
  | compare column comparator parameter => exact .map (steps parameter) _
  | flag column equal flag => exact .ok _
  | empty column isEmpty => exact .ok _
  | among column isIn parameters =>
      refine .map (.mapM fun parameter _ => ?_) _
      cases parameter with
      | none => exact .ok _
      | some given => exact .map (steps given) _
  | like column pattern => exact .map (steps pattern) _
  | likeLowered column pattern => exact .map (steps pattern) _

namespace Condition

mutual

theorem mapParameters_resolved (steps : ∀ parameter, Resolved (step parameter))
    (condition : Condition π) : Resolved (condition.mapParameters step) := by
  cases condition with
  | constant holds => exact .ok _
  | test test =>
      rw [mapParameters]
      exact .map (test.mapParameters_resolved steps) _
  | all conditions =>
      rw [mapParameters]
      exact .map (mapParametersOf_resolved steps conditions) _
  | any conditions =>
      rw [mapParameters]
      exact .map (mapParametersOf_resolved steps conditions) _

theorem mapParametersOf_resolved (steps : ∀ parameter, Resolved (step parameter))
    (conditions : List (Condition π)) : Resolved (mapParametersOf step conditions) := by
  cases conditions with
  | nil => exact .ok _
  | cons condition rest =>
      rw [mapParametersOf]
      refine .bind (mapParameters_resolved steps condition) fun changed _ => ?_
      exact .bind (mapParametersOf_resolved steps rest) fun _ _ => .ok _

end

end Condition

theorem mapWindow_resolved (steps : ∀ parameter, Resolved (step parameter))
    (window : Option (Window π)) : Resolved (mapWindow step window) := by
  cases window with
  | none => exact .ok _
  | some window =>
      exact .bind (steps window.limit) fun _ _ => .bind (steps window.offset) fun _ _ => .ok _

/-- A kind of statement whose parameters can be changed wherever a step can be taken. -/
def Changeable (σ : Type → Type) [Statement σ] : Prop :=
  ∀ {π ρ : Type} {step : π → Except Error ρ}, (∀ parameter, Resolved (step parameter)) →
    ∀ statement : σ π, Resolved (Statement.mapParameters step statement)

theorem Select.changeable : Changeable Select := fun steps query =>
  .bind (Condition.mapParametersOf_resolved steps _) fun _ _ =>
    .bind (mapWindow_resolved steps query.window) fun _ _ => .ok _

theorem Count.changeable : Changeable Count := fun steps _ =>
  .bind (Condition.mapParametersOf_resolved steps _) fun _ _ => .ok _

theorem Select.mapParameters_columns {query : Select π} {changed : Select ρ}
    (done : Statement.mapParameters step query = .ok changed) : changed.columns = query.columns := by
  obtain ⟨conditions, _, done⟩ := bind_eq_ok.mp done
  obtain ⟨window, _, done⟩ := bind_eq_ok.mp done
  cases done
  rfl

end Parameters

/-! ## Running -/

theorem Database.table_resolved (database : Database) (model : Model) :
    Resolved (database.table model) := by
  unfold table
  split
  · exact .ok _
  · exact .error rfl

theorem matchingRows_resolved (table : Table) (conditions : List (Condition Cell)) :
    Resolved (matchingRows table conditions) := by
  unfold matchingRows
  split
  · exact .error rfl
  · exact .ok _

theorem Select.run_resolved (query : Select Cell) (database : Database) :
    Resolved (query.run database) := by
  refine .bind (database.table_resolved query.model) fun table _ => ?_
  refine .bind (.mapM fun count _ => .map (database.table_resolved count.target) _) fun _ _ => ?_
  exact .bind (matchingRows_resolved table query.conditions) fun _ _ => .ok _

theorem Count.run_resolved (query : Count Cell) (database : Database) :
    Resolved (query.run database) :=
  .bind (database.table_resolved query.model) fun table _ =>
    .bind (matchingRows_resolved table query.conditions) fun _ _ => .ok _

/-- The rows that are read have the selected columns. -/
theorem Select.run_has {query : Select Cell} {database : Database} {rows : List Record}
    (done : query.run database = .ok rows) {column : Column} (selected : column ∈ query.columns) :
    ∀ row ∈ rows, row.has column.name = true := by
  obtain ⟨table, _, done⟩ := bind_eq_ok.mp done
  obtain ⟨targets, _, done⟩ := bind_eq_ok.mp done
  obtain ⟨matching, _, done⟩ := bind_eq_ok.mp done
  cases done
  intro row member
  obtain ⟨shown, _, rfl⟩ := List.mem_map.mp member
  rw [Record.has, List.any_eq_true]
  refine ⟨_, List.mem_append_left _ (List.mem_map_of_mem selected), ?_⟩
  exact beq_self_eq_true _

namespace Connection

theorem requireActive_resolves :
    requireActive.Resolves (fun _ => True) fun _ => True := by
  intro connection _
  refine ⟨?_, trivial, fun _ _ => trivial⟩
  obtain ⟨database, transaction, sent⟩ := connection
  cases transaction with
  | none => exact .ok _
  | some transaction =>
      change Resolved (if transaction.isActive then _ else _)
      split
      · exact .ok _
      · exact .error rfl

/-- Asking looks up no names; the answer is what the statement yields for the cells of its
parameters. -/
theorem ask_resolves {σ : Type → Type} [Statement σ] {α : Type} {statement : σ Operand}
    {run : σ Cell → Database → Except Error α} {property : α → Prop} (changeable : Changeable σ)
    (runs : ∀ cells database, Resolved (run cells database))
    (yields : ∀ prepared cells database result,
      Statement.mapParameters Operand.prepare statement = .ok prepared →
        Statement.mapParameters Cell.ofValue prepared = .ok cells →
          run cells database = .ok result → property result) :
    (ask statement run).Resolves (fun _ => True) property := by
  have quiet {β : Type} (action : Action Connection β)
      (succeeds : ∀ connection, ∃ value, (action.perform connection).1 = .ok value) :
      action.Resolves (fun _ => True) fun _ => True := by
    intro connection _
    obtain ⟨value, done⟩ := succeeds connection
    rw [done]
    exact ⟨.ok value, trivial, fun _ _ => trivial⟩
  unfold ask send
  refine .bind requireActive_resolves fun _ _ => ?_
  refine .bind (.ofExcept (changeable Operand.prepare_resolved statement)) ?_
  intro prepared isPrepared
  refine .bind (quiet _ fun connection => ⟨(), rfl⟩) fun _ _ => ?_
  refine .bind (.ofExcept (changeable Cell.ofValue_resolved prepared)) fun cells isCells => ?_
  refine .bind (quiet _ fun connection => ⟨connection, rfl⟩) fun connection _ => ?_
  refine .bind (.ofExcept (.map (runs cells connection.database) _)) fun answer ran => ?_
  obtain ⟨result, database⟩ := answer
  obtain ⟨yielded, isYielded, same⟩ := map_eq_ok.mp ran
  cases same
  refine .bind (quiet _ fun connection => ⟨(), rfl⟩) fun _ _ => ?_
  exact .pure (yields prepared cells connection.database result isPrepared isCells isYielded)

/-- A store in a database resolves the names of executable specifications, whatever it holds. -/
theorem resolving {registry : Registry} (valid : registry.validate = .ok ()) :
    Store.Resolving Connection registry fun _ => True where
  fetches spec executable offset limit := by
    refine .bind (.ofExcept (Select.ofSpec_resolved valid executable offset limit)) ?_
    intro query built
    refine ask_resolves Select.changeable Select.run_resolved ?_
    intro prepared cells database rows isPrepared isCells ran
    obtain ⟨column, selected, isKey⟩ := Select.ofSpec_keyed valid executable built
    rw [← Select.mapParameters_columns isPrepared, ← Select.mapParameters_columns isCells]
      at selected
    rw [← isKey]
    exact Select.run_has ran selected
  counts spec executable := by
    refine .bind (.ofExcept (Count.ofSpec_resolved valid executable)) fun query _ => ?_
    exact ask_resolves Count.changeable Count.run_resolved fun _ _ _ _ _ _ _ => trivial

end Connection

end ResourceServer.Sql
