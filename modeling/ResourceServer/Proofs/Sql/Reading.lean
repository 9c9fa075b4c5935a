import Mathlib
import ResourceServer.Proofs.Sql.Showing
import ResourceServer.Samples.Library

/-!
# Both stores read the same

The store in memory sorts its records field by field, shows a part of them and projects each; a
database sorts its rows by all fields at once.  Since the key comes last and tells all rows apart,
there is only one order, so for a query that suits the schema both stores yield the same rows.
-/

namespace ResourceServer

namespace Sql

/-! ## Running a selection -/

/-- A selection takes the rows of its table that it matches, with their counts, in its order, and
shows a part of them. -/
theorem run_select {query : Select Cell} {database : Database} {table : Table} {tables : List Table}
    (found : database.table query.model = .ok table)
    (targets : List.Forall₂ (fun count table => database.table count.target = .ok table)
      query.counts tables)
    (short : (Condition.testsOf query.conditions).any Condition.hasLongPattern = false) :
    query.run database = .ok ((shown query.window
      ((((table.rows.map Prod.snd).filter (Condition.select query.conditions)).map
        (selectedOf (query.counts.zip tables))).mergeSort fun left right =>
          Selected.order query.order left right != .gt)).map (Selected.toRecord query.columns)) := by
  have counted : query.counts.mapM (fun count =>
      (database.table count.target).map fun target => (count, target)) =
        .ok (query.counts.zip tables) := by
    refine mapM_of_forall₂ ?_
    generalize query.counts = counts at targets
    induction targets with
    | nil => exact List.Forall₂.nil
    | @cons count table counts tables first rest induction =>
        refine List.Forall₂.cons ?_ induction
        rw [first]
        rfl
  have matching : matchingRows table query.conditions =
      .ok ((table.rows.map Prod.snd).filter (Condition.select query.conditions)) := by
    rw [matchingRows, short, Bool.and_false, if_neg Bool.false_ne_true]
  simp only [Select.run, found, counted, matching, bind, Except.bind]
  unfold shown
  cases query.window <;> rfl

theorem run_count {query : Count Cell} {database : Database} {table : Table}
    (found : database.table query.model = .ok table)
    (short : (Condition.testsOf query.conditions).any Condition.hasLongPattern = false) :
    query.run database =
      .ok ((table.rows.map Prod.snd).filter (Condition.select query.conditions)).length := by
  have matching : matchingRows table query.conditions =
      .ok ((table.rows.map Prod.snd).filter (Condition.select query.conditions)) := by
    rw [matchingRows, short, Bool.and_false, if_neg Bool.false_ne_true]
  simp only [Count.run, found, matching, bind, Except.bind]

theorem forall₂_part {α β : Type} {relation : α → β → Prop} {items : List α} {others : List β}
    (offset limit : Option Int) (each : List.Forall₂ relation items others) :
    List.Forall₂ relation (part offset limit items) (part offset limit others) := by
  unfold part
  cases limit with
  | none => exact List.forall₂_drop _ each
  | some limit =>
      by_cases negative : limit < 0
      · simp only [if_pos negative]
        exact List.forall₂_drop _ each
      · simp only [if_neg negative]
        exact List.forall₂_take _ (List.forall₂_drop _ each)

/-! ## Both stores -/

section Stores

variable {registry : Registry} {spec : QuerySpec} {contents : Contents} {database : Database}
  {offset limit : Option Int}

/-- The directives that decide about the order of a result: the key comes last. -/
def allSorts (spec : QuerySpec) : List SortDirective :=
  spec.sorts ++ [⟨spec.resource.keyName, .ascending⟩]

theorem sortable_of_suits (suits : QuerySuits registry spec) :
    ∀ directive ∈ allSorts spec, Sortable spec directive.field := by
  intro directive member
  cases List.mem_append.mp member with
  | inl given => exact suits.sorts directive given
  | inr last =>
      rw [List.mem_singleton.mp last]
      exact .inr suits.key

/-- Two rows of a result that tie in everything are the same row. -/
theorem apart_of_keys (suits : QuerySuits registry spec) {chosen : List Record} {rows : List Selected}
    (shows : List.Forall₂ (Shows spec) chosen rows)
    (keys : (chosen.map fun record => record.get spec.resource.keyName).Nodup) :
    ∀ record ∈ chosen, ∀ other ∈ chosen,
      recordOrder (allSorts spec) record other = .eq → record = other := by
  intro record isChosen other otherIsChosen tie
  rw [allSorts, recordOrder_append, Ordering.then_eq_eq] at tie
  have tie := (Ordering.then_eq_eq.mp tie.2).1
  have sameCell := eq_of_order_eq tie
  obtain ⟨column, found, plain⟩ := suits.key
  have named := Model.name_of_column? found
  have isColumn : spec.resource.keyName ∉ spec.aggregateAliases := fun isCount =>
    suits.apart _ isCount (key_mem_selectedColumns suits)
  rw [← named] at found isColumn sameCell keys
  have readBack : ∀ record ∈ chosen,
      (Cell.ofPlain (record.get column.name)).read column.type = record.get column.name := by
    intro record isChosen
    obtain ⟨selected, _, shows⟩ := exists_of_mem_right shows.flip isChosen
    have keeps := shows.keeps column found isColumn
    rw [← keeps.eq_ofPlain plain, keeps.read]
  have sameKey : record.get column.name = other.get column.name := by
    rw [← readBack record isChosen, sameCell, readBack other otherIsChosen]
  exact List.inj_on_of_nodup_map keys isChosen otherIsChosen sameKey

/-- Memory sorts what it selects by all fields, shows a part and projects it. -/
theorem memory_fetchRows (suits : QuerySuits registry spec) {chosen : List Record}
    {rows : List Selected} (selected : contents.selectRows registry spec
      (contents.table spec.resource.name).rows = .ok chosen)
    (shows : List.Forall₂ (Shows spec) chosen rows) :
    ∃ sorted, sorted.Perm chosen ∧
      sorted.Pairwise (fun record other => recordOrder (allSorts spec) record other ≠ .gt) ∧
      ∀ offset limit, contents.fetchRows registry spec offset limit =
        .ok ((Contents.window offset limit sorted).map fun record =>
          record.project (Contents.resultNames spec)) := by
  have uniform : ∀ directive ∈ allSorts spec, Uniform directive.field chosen :=
    fun directive member => uniform_of_shows shows (sortable_of_suits suits directive member)
  have complete : (chosen.any fun record => !record.has spec.resource.keyName) = false := by
    rw [List.any_eq_false]
    intro record isChosen
    obtain ⟨selected, _, shows⟩ := exists_of_mem_right shows.flip isChosen
    obtain ⟨column, found, _⟩ := suits.key
    have isColumn : spec.resource.keyName ∈ spec.resource.model.columnNames := by
      rw [← Model.name_of_column? found]
      exact List.mem_map_of_mem (List.mem_of_find?_eq_some found)
    rw [shows.complete _ isColumn]
    exact Bool.false_ne_true
  obtain ⟨byKey, keyed, permKey, sortedKey⟩ :=
    @sortBy_sorted spec.resource.keyName chosen .ascending 
      (uniform ⟨spec.resource.keyName, .ascending⟩ (by simp [allSorts])) []
      (List.pairwise_of_forall fun _ _ => Ordering.noConfusion)
  have uniformByKey : ∀ directive ∈ spec.sorts, Uniform directive.field byKey :=
    fun directive isGiven record isRecord other isOther =>
      uniform directive (List.mem_append_left _ isGiven) record (permKey.subset isRecord) other
        (permKey.subset isOther)
  obtain ⟨sorted, sorting, perm, pairwise⟩ := sortByAll_sorted uniformByKey sortedKey
  refine ⟨sorted, perm.trans permKey, pairwise, fun offset limit => ?_⟩
  rw [Contents.fetchRows, selected]
  change (if (chosen.any fun record => !record.has spec.resource.keyName) then _ else _) = _
  rw [complete, if_neg Bool.false_ne_true, keyed]
  change (Record.sortByAll spec.sorts byKey >>= _) = _
  rw [sorting]
  rfl

/-- The selection that a query asks a database for. -/
theorem built_select (suits : QuerySuits registry spec) {conditions : List (Condition Operand)}
    (built : Condition.ofSpec spec = .ok conditions) {counts : List CountColumn}
    (counted : countColumns registry spec = .ok counts)
    (labels : counts.map CountColumn.label = distinctNames spec.aggregateAliases) :
    ∃ columns order,
      (∀ offset limit, Select.ofSpec registry spec offset limit =
        .ok ⟨spec.resource.model, columns, counts, conditions, order, windowOf offset limit⟩) ∧
      List.Forall₂ (fun name column => spec.resource.model.column? name = some column)
        spec.selectedColumns columns ∧
      List.Forall₂ (OrdersAs spec) (allSorts spec) order := by
  obtain ⟨columns, selectsColumns, found⟩ := mapM_queryColumn suits.selected
  obtain ⟨keyColumn, isKey, plain⟩ := suits.key
  have keyNamed : queryColumn spec.resource.model spec.resource.keyName = .ok keyColumn := by
    rw [queryColumn, isKey]
  have isColumn : spec.resource.keyName ∉ spec.aggregateAliases := fun isCount =>
    suits.apart _ isCount (key_mem_selectedColumns suits)
  obtain ⟨sorts, orders⟩ : ∃ sorts, List.Forall₂ (fun directive key =>
      (SortKey.ofField spec.resource.model counts directive.field).map
          (fun key => (key, directive.direction)) = .ok key ∧ OrdersAs spec directive key)
      spec.sorts sorts := by
    refine exists_forall₂ fun directive isGiven => ?_
    obtain ⟨key, names, orders⟩ := sortKey_of_sortable labels (suits.sorts directive isGiven)
    exact ⟨(key, directive.direction), map_eq_ok.mpr ⟨key, names, rfl⟩, orders⟩
  have built : ∀ offset limit, Select.ofSpec registry spec offset limit =
      .ok ⟨spec.resource.model, columns, counts, conditions,
        sorts ++ [(.column keyColumn, .ascending)], windowOf offset limit⟩ := by
    intro offset limit
    have sorted := mapM_of_forall₂ (orders.imp fun directive key both => both.1)
    simp only [Select.ofSpec, counted, selectsColumns, built, sorted, keyNamed, bind, Except.bind]
  refine ⟨columns, _, built, found,
    List.rel_append (orders.imp fun directive key both => both.2)
      (List.Forall₂.cons ⟨rfl, fun record selected shows => ?_⟩ List.Forall₂.nil)⟩
  have named := Model.name_of_column? isKey
  change selected.row.cell keyColumn.name = Cell.ofPlain (record.get spec.resource.keyName)
  rw [← named] at isKey isColumn ⊢
  exact (shows.keeps keyColumn isKey isColumn).eq_ofPlain plain

end Stores

/-! ## Stores of one resource -/

/-- Whether a record has a whole number, a text, a flag or null of its type in every column. -/
def isPlainRecord (model : Model) (record : Record) : Bool :=
  model.columns.all fun column =>
    record.has column.name &&
      ((record.get column.name).isNull ||
        column.type.isPlain && column.type.owns (record.get column.name))

theorem mirrors_plainRow {model : Model} {record : Record}
    (plain : isPlainRecord model record = true) : Mirrors model record (plainRow model record) := by
  rw [isPlainRecord, List.all_eq_true] at plain
  constructor
  · apply rowKeeps_plainRow
    intro column found
    have each := plain column (List.mem_of_find?_eq_some found)
    rw [Bool.and_eq_true, Bool.or_eq_true, Bool.and_eq_true] at each
    exact each.2.imp_left Value.isNull_iff.mp
  · intro name isColumn
    obtain ⟨column, member, rfl⟩ := List.mem_map.mp isColumn
    exact ((Bool.and_eq_true _ _).mp (plain column member)).1

/-- A registry of one resource. -/
def soleRegistry (resource : Resource) : Registry := ⟨[resource]⟩

/-- A store in memory that has the rows of one resource. -/
def soleMemory (resource : Resource) (table : ResourceServer.Table) : Memory where
  contents := { tables := [(resource.name, table)] }

/-- Records filed under their keys. -/
def filed (resource : Resource) (records : List Record) : ResourceServer.Table :=
  records.map fun record => (record.get resource.keyName, record)

/-- A connection to a database that has the rows of one resource, numbered from one on. -/
def soleConnection (resource : Resource) (records : List Record) : Connection where
  database := [(resource.model.table,
    { model := resource.model
      rows := records.zipIdx.map fun (record, index) =>
        ((index : Int) + 1, plainRow resource.model record) })]

/-- Plain records are kept by plain rows, in any order. -/
theorem sameContents_sole {resource : Resource} {table : ResourceServer.Table} {records : List Record}
    (perm : table.rows.Perm records)
    (plain : records.all (isPlainRecord resource.model) = true) :
    SameContents (soleRegistry resource) (soleMemory resource table).contents
      (soleConnection resource records).database := by
  intro other registered
  rw [List.mem_singleton.mp registered]
  refine ⟨_, List.lookup_cons_self, records, ?_, ?_⟩
  · simpa [soleMemory, Contents.table] using perm
  · rw [List.map_map]
    have rows : records.zipIdx.map (Prod.snd ∘ fun (entry : Record × Nat) =>
        ((entry.2 : Int) + 1, plainRow resource.model entry.1)) =
          records.map (plainRow resource.model) := by
      change records.zipIdx.map (plainRow resource.model ∘ Prod.fst) = _
      rw [← List.map_map, List.zipIdx_map_fst]
    have each : List.Forall₂ (Mirrors resource.model) records
        (records.map (plainRow resource.model)) := by
      rw [List.forall₂_map_right_iff, List.forall₂_same]
      exact fun record isRecord => mirrors_plainRow (List.all_eq_true.mp plain record isRecord)
    rw [← rows] at each
    exact each

section Nodes

open Samples Samples.Library

/-- A tree of nodes, in which two have no rank. -/
def tree : List Record :=
  [nodeRow 1 "Root" .null (.int 3), nodeRow 2 "left" (.int 1) (.int 2),
    nodeRow 3 "RIGHT" (.int 1) .null, nodeRow 4 "leaf" (.int 2) .null]

/-- The nodes with a T in the name and no rank or one above one: those with more children first, then
by rank. -/
def treeQuery : QuerySpec where
  resource := nodes
  wheres := [.group .both [.leaf ⟨"rank", .isNull, .null, .both⟩, .leaf ⟨"rank", .gt, .int 1, .either⟩]]
  searchTerm := some ⟨"T", ["name"], false⟩
  sorts := [⟨"children_count", .descending⟩, ⟨"rank", .ascending⟩]
  aggregates := [⟨"children"⟩]
  columns := some ["name"]

theorem treeQuery_suits : QuerySuits (soleRegistry nodes) treeQuery where
  registered := List.mem_cons_self
  distinct := by decide
  conditions :=
    { wheres := by decide
      search := by
        intro term given
        cases given
        refine ⟨rfl, by decide, by decide, fun field isField => ?_⟩
        rw [List.mem_singleton.mp isField]
        exact ⟨_, rfl, rfl⟩ }
  sorts := by
    intro directive isGiven
    cases List.mem_cons.mp isGiven with
    | inl first =>
        rw [first]
        exact .inl (by decide)
    | inr second =>
        rw [List.mem_singleton.mp second]
        exact .inr ⟨_, rfl, rfl⟩
  key := ⟨_, rfl, rfl⟩
  selected := by decide
  counted := by
    intro aggregate isGiven
    rw [List.mem_singleton.mp isGiven]
    exact ⟨_, _, _, _, ⟨rfl, rfl, rfl, rfl, rfl⟩⟩
  apart := by decide

/-- A query yields something else in a database than in memory, although both have the same rows. -/
structure ReadsAmiss (registry : Registry) (memory : Memory) (connection : Connection)
    (spec : QuerySpec) (offset limit : Option Int) : Prop where
  valid : registry.validate = .ok ()
  registered : spec.resource ∈ registry.resources
  same : SameContents registry memory.contents connection.database
  differ :
    ((Store.fetchRows registry spec offset limit : Action Memory (List Record)).perform memory).1 ≠
      ((Store.fetchRows registry spec offset limit :
        Action Connection (List Record)).perform connection).1

theorem readsAmiss_sole {resource : Resource} {table : ResourceServer.Table} {records : List Record}
    {connection : Connection} {spec : QuerySpec} {offset limit : Option Int}
    (valid : (soleRegistry resource).validate = .ok ()) (registered : spec.resource = resource)
    (perm : table.rows.Perm records) (plain : records.all (isPlainRecord resource.model) = true)
    (holds : connection.database = (soleConnection resource records).database)
    (differ : ((Store.fetchRows (soleRegistry resource) spec offset limit :
        Action Memory (List Record)).perform (soleMemory resource table)).1 ≠
      ((Store.fetchRows (soleRegistry resource) spec offset limit :
        Action Connection (List Record)).perform connection).1) :
    ReadsAmiss (soleRegistry resource) (soleMemory resource table) connection spec offset limit where
  valid := valid
  registered := by
    rw [registered]
    exact List.mem_cons_self
  same := by
    rw [holds]
    exact sameContents_sole perm plain
  differ := differ

theorem ne_of_results {α : Type} {first second result other : α} (inMemory : first = result)
    (inDatabase : second = other) (differ : result ≠ other) : first ≠ second := by
  rwa [inMemory, inDatabase]

/-- The number that a result of one row has under a name. -/
def soleNumber (name : String) : Except Error (List Record) → Option Int
  | .ok [row] =>
      match row.get name with
      | .int number => some number
      | _ => none
  | _ => none

/-- Two nodes without parents. -/
def twoNodes : List Record := [nodeRow 1 "a" .null .null, nodeRow 2 "b" .null .null]

/-- In memory a negative offset counts from the end. -/
theorem negativeOffset_amiss :
    ReadsAmiss (soleRegistry nodes) (soleMemory nodes (filed nodes twoNodes))
      (soleConnection nodes twoNodes) { resource := nodes } (some (-1)) none :=
  readsAmiss_sole rfl rfl (List.Perm.refl twoNodes) (by decide) rfl
    (@ne_of_results _ _ _ (.ok [nodeRow 2 "b" .null .null]) (.ok twoNodes) (by cbv)
      (by cbv) (by simp [twoNodes]))

/-- In memory a negative limit leaves rows out at the end. -/
theorem negativeLimit_amiss :
    ReadsAmiss (soleRegistry nodes) (soleMemory nodes (filed nodes twoNodes))
      (soleConnection nodes twoNodes) { resource := nodes } none (some (-1)) :=
  readsAmiss_sole rfl rfl (List.Perm.refl twoNodes) (by decide) rfl
    (@ne_of_results _ _ _ (.ok [nodeRow 1 "a" .null .null]) (.ok twoNodes) (by cbv)
      (by cbv) (by simp [twoNodes]))

/-- Nodes that are found by their names, which may repeat. -/
def namedNodes : Resource := { nodes with keyName := "name" }

/-- Two nodes of one name. -/
def namesakes : List Record := [nodeRow 2 "same" .null .null, nodeRow 1 "same" .null .null]

/-- Rows with equal keys are shown as they stand, and stores may have them in different orders. -/
theorem equalKeys_amiss :
    ReadsAmiss (soleRegistry namedNodes)
      (soleMemory namedNodes (([.text "same", .text "other"] : List Value).zip namesakes))
      (soleConnection namedNodes namesakes.reverse) { resource := namedNodes } none none :=
  @readsAmiss_sole _ _ namesakes.reverse _ _ _ _ rfl rfl (List.reverse_perm namesakes).symm
    (by decide) rfl
    (@ne_of_results _ _ _ (.ok namesakes) (.ok namesakes.reverse) (by cbv) (by cbv)
      (by simp [namesakes, nodeRow]))

/-- Nodes that count the nodes with their rank for a name. -/
def rankedNodes : Resource := { nodes with
  relations := [hasMany "ranked" "nodes" "name" (some "rank")], includes := [], aggregates := ["ranked"] }

/-- A node with a numeral for a name. -/
def numeral : List Record := [nodeRow 1 "7" .null (.int 7)]

/-- A database takes a text for the number that it spells where it is joined with a number. -/
theorem joinedKinds_amiss :
    ReadsAmiss (soleRegistry rankedNodes) (soleMemory rankedNodes (filed rankedNodes numeral))
      (soleConnection rankedNodes numeral) { resource := rankedNodes, aggregates := [⟨"ranked"⟩] }
      none none := by
  refine @readsAmiss_sole _ _ numeral _ _ _ _ rfl rfl (List.Perm.refl _) (by decide) rfl ?_
  intro same
  have counted := congrArg (soleNumber "ranked_count") same
  revert counted
  decide +kernel

/-- Nodes whose children refer to nicknames, which are no column. -/
def nickedNodes : Resource := { nodes with
  relations := [hasMany "children" "nodes" "parent_id" (some "nick")], includes := [] }

/-- Memory counts nothing where a database does not find the column. -/
theorem missingColumn_amiss :
    ReadsAmiss (soleRegistry nickedNodes) (soleMemory nickedNodes (filed nickedNodes numeral))
      (soleConnection nickedNodes numeral) { resource := nickedNodes, aggregates := [⟨"children"⟩] }
      none none :=
  readsAmiss_sole rfl rfl (List.Perm.refl numeral) (by decide) rfl
    (@ne_of_results _ _ _ (.ok [nodeRow 1 "7" .null (.int 7) ++ [("children_count", .int 0)]])
      (.error (.lookup (.column "nick"))) (by cbv) (by cbv) nofun)

/-- Memory does not look at a relation that it never has to count. -/
theorem undeclaredCount_amiss :
    ReadsAmiss (soleRegistry nodes) (soleMemory nodes []) (soleConnection nodes [])
      { resource := nodes, aggregates := [⟨"cousins"⟩] } none none :=
  readsAmiss_sole rfl rfl (List.Perm.refl []) (by decide) rfl
    (@ne_of_results _ _ _ (.ok []) (.error (.lookup (.relation "cousins" "nodes"))) (by cbv)
      (by cbv) nofun)

/-- Memory has null under a selected name that is no column. -/
theorem missingSelection_amiss :
    ReadsAmiss (soleRegistry nodes) (soleMemory nodes (filed nodes numeral))
      (soleConnection nodes numeral) { resource := nodes, columns := some ["nick"] } none none :=
  readsAmiss_sole rfl rfl (List.Perm.refl numeral) (by decide) rfl
    (@ne_of_results _ _ _ (.ok [[("id", .int 1), ("nick", .null)]])
      (.error (.lookup (.column "nick"))) (by cbv) (by cbv) nofun)

/-- Nodes that count their siblings under the name of a column. -/
def siblings : Resource where
  name := "nodes"
  model := { name := "Node", table := "nodes",
             columns := [countedKey, optional "siblings_count" .integer] }
  relations := [hasMany "siblings" "nodes" "siblings_count"]

/-- A node that nodes may be siblings of. -/
def siblingRow : Record := [("id", .int 1), ("siblings_count", .int 5)]

/-- Memory shows a count in the place of the column of its name, a database shows the column. -/
theorem sharedName_amiss :
    ReadsAmiss (soleRegistry siblings)
      (soleMemory siblings (filed siblings [siblingRow])) (soleConnection siblings [siblingRow])
      { resource := siblings, aggregates := [⟨"siblings"⟩] } none none := by
  refine @readsAmiss_sole _ _ [siblingRow] _ _ _ _ rfl rfl (List.Perm.refl _) (by decide) rfl ?_
  intro same
  have shown := congrArg (soleNumber "siblings_count") same
  revert shown
  decide +kernel

/-- In a transaction that was abandoned a database answers nothing. -/
theorem abandoned_amiss :
    ReadsAmiss (soleRegistry nodes) (soleMemory nodes (filed nodes twoNodes))
      { soleConnection nodes twoNodes with
        transaction := some { before := (soleConnection nodes twoNodes).database, isActive := false } }
      { resource := nodes } none none :=
  readsAmiss_sole rfl rfl (List.Perm.refl twoNodes) (by decide) rfl
    (@ne_of_results _ _ _ (.ok twoNodes) (.error (.plain .session)) (by cbv) (by cbv) nofun)

end Nodes

end Sql

end ResourceServer
