import ResourceServer.Proofs.Lists
import ResourceServer.Proofs.Sql.Agreement
import ResourceServer.Proofs.Sql.Ordering
import ResourceServer.Proofs.Store.Separation

/-!
# Stores with the same rows

A store in memory and a database hold the same rows when the rows of each resource keep its
records, in whatever order.  Then the rows that a relation leads to are equally many, provided
that it joins columns of numbers or columns of texts: a database takes a text that spells a number
for that number where the other side is a number.
-/

namespace ResourceServer

namespace Registry

variable {registry : Registry} {resource : Resource}

theorem fault_eq_none (valid : registry.validate = .ok ())
    (registered : resource ∈ registry.resources) : registry.fault? resource = none := by
  unfold validate at valid
  cases found : registry.resources.findSome? registry.fault? with
  | none => exact List.findSome?_eq_none_iff.mp found resource registered
  | some fault =>
      rw [found] at valid
      cases valid

theorem deletedAt_mem_columns (valid : registry.validate = .ok ())
    (registered : resource ∈ registry.resources) (softDeletes : resource.softDeletes = true) :
    resource.deletedAtColumn ∈ resource.columns := by
  have sound := fault_eq_none valid registered
  unfold fault? at sound
  split at sound
  · cases sound
  · split at sound
    · cases sound
    · rename_i known
      simpa [softDeletes] using known

end Registry

theorem Model.exists_column? {model : Model} {name : String} (isColumn : name ∈ model.columnNames) :
    ∃ column, model.column? name = some column := by
  obtain ⟨column, member, named⟩ := List.mem_map.mp isColumn
  rw [← Option.isSome_iff_exists, Model.column?, List.find?_isSome]
  exact ⟨column, member, by rw [beq_iff_eq, named]⟩

namespace Sql

/-- A row keeps a record, which has every column. -/
structure Mirrors (model : Model) (record : Record) (row : Row) : Prop where
  keeps : RowKeeps model record row
  complete : ∀ name ∈ model.columnNames, record.has name = true

/-- Rows keep records one by one, in some order of the records. -/
def SameRows (model : Model) (records : List Record) (rows : List Row) : Prop :=
  ∃ arranged, records.Perm arranged ∧ List.Forall₂ (Mirrors model) arranged rows

/-- A database has a table for each resource of a registry, with the rows that memory has. -/
def SameContents (registry : Registry) (contents : Contents) (database : Database) : Prop :=
  ∀ resource ∈ registry.resources, ∃ table, database.lookup resource.model.table = some table ∧
    SameRows resource.model (contents.table resource.name).rows (table.rows.map Prod.snd)

theorem SameRows.countP_eq {model : Model} {records : List Record} {rows : List Row}
    (same : SameRows model records rows) {testRecord : Record → Bool} {testRow : Row → Bool}
    (alike : ∀ record row, Mirrors model record row → testRecord record = testRow row) :
    records.countP testRecord = rows.countP testRow := by
  obtain ⟨arranged, perm, mirror⟩ := same
  rw [perm.countP_eq]
  exact countP_eq_of_forall₂ mirror alike

/-! ## Counting -/

/-- Whether values of two column types are compared as they stand: numbers with numbers, and texts
with texts. -/
def joinable (first second : ColumnType) : Bool :=
  first == .text && second == .text ||
    (first == .integer || first == .boolean) && (second == .integer || second == .boolean)

/-- What a resource counts under a name: a relation that leads to a resource of the registry and joins
two columns that can be joined. -/
structure Countable (registry : Registry) (owner : Resource) (name : String)
    (relation : Relation) (target : Resource) (ownerColumn targetColumn : Column) : Prop where
  declared : owner.relations.lookup name = some relation
  known : registry.find? relation.target = some target
  joinsOwner : owner.model.column? (relation.joiningFields owner target).1 = some ownerColumn
  joinsTarget : target.model.column? (relation.joiningFields owner target).2 = some targetColumn
  joinable : joinable ownerColumn.type targetColumn.type = true

theorem joinable_plain {first second : ColumnType} (joinable : joinable first second = true) :
    first.isPlain = true ∧ second.isPlain = true := by
  cases first <;> cases second <;> cases joinable <;> exact ⟨rfl, rfl⟩

theorem joins_null {left right : Column} {leftCell rightCell : Cell}
    (empty : leftCell.isNull = true ∨ rightCell.isNull = true) :
    joins left leftCell right rightCell = false := by
  unfold joins
  cases empty with
  | inl leftEmpty => rw [leftEmpty, Bool.true_or, if_pos rfl]
  | inr rightEmpty => rw [rightEmpty, Bool.or_true, if_pos rfl]

/-- Values of joinable types can be compared. -/
theorem alike_of_joinable {first second : ColumnType} (joinable : joinable first second = true)
    {value other : Value} (owned : first.owns value = true) (ownedOther : second.owns other = true) :
    other.alike value = true := by
  obtain ⟨plain, plainOther⟩ := joinable_plain joinable
  rcases ColumnType.owns_cases plain owned with
    ⟨rfl, value, rfl, _⟩ | ⟨rfl, value, rfl⟩ | ⟨rfl, value, rfl⟩ <;>
    rcases ColumnType.owns_cases plainOther ownedOther with
      ⟨rfl, other, rfl, _⟩ | ⟨rfl, other, rfl⟩ | ⟨rfl, other, rfl⟩ <;>
    first | rfl | cases joinable

theorem joins_integers (left right : Column) (first second : Int) :
    joins left (.integer first) right (.integer second) = (compare first second == .eq) := by
  unfold joins
  cases columnAffinity left <;> cases columnAffinity right <;> rfl

/-- Two kept values join exactly when they are equal. -/
theorem joins_eq {ownerColumn targetColumn : Column} {value other : Value} {cell otherCell : Cell}
    (joinable : joinable ownerColumn.type targetColumn.type = true)
    (keeps : Keeps ownerColumn value cell) (keepsOther : Keeps targetColumn other otherCell)
    (some : value.isNull = false) :
    joins targetColumn otherCell ownerColumn cell = other.same value := by
  obtain ⟨plain, plainOther⟩ := joinable_plain joinable
  have isCell := keeps.eq_ofPlain plain
  have isOtherCell := keepsOther.eq_ofPlain plainOther
  have owned : ownerColumn.type.owns value = true := by
    cases keeps.typed with
    | inl null =>
        rw [null] at some
        cases some
    | inr owned => exact owned
  cases keepsOther.typed with
  | inl null =>
      subst null
      rw [joins_null (.inl keepsOther.isNull), Value.same, some]
  | inr ownedOther =>
      rw [isCell, isOtherCell]
      rcases alike_cases (alike_of_joinable joinable owned ownedOther) with
        ⟨rfl, _⟩ | ⟨rfl, _⟩ | ⟨first, second, firstCell, secondCell, _, _, _, same⟩ |
        ⟨first, second, rfl, rfl⟩
      · cases type : targetColumn.type <;> rw [type] at ownedOther <;> cases ownedOther
      · cases some
      · rw [firstCell, secondCell, joins_integers, same]
      · have isText : ownerColumn.type = .text := by
          cases type : ownerColumn.type <;> rw [type] at owned <;> first | rfl | cases owned
        have isTextOther : targetColumn.type = .text := by
          cases type : targetColumn.type <;> rw [type] at ownedOther <;>
            first | rfl | cases ownedOther
        rw [joins, columnAffinity, columnAffinity, isText, isTextOther, Bool.eq_iff_iff]
        simp [Cell.ofPlain, Cell.isNull, Affinity.ofType, Cell.order, Value.same]

/-! ## Counts of related rows -/

section Counts

variable {registry : Registry} {owner target : Resource} {name : String} {relation : Relation}
  {ownerColumn targetColumn : Column}

/-- A count that can be joined becomes a selected column, with a column for trashed rows where the
target has them. -/
theorem Countable.built (countable : Countable registry owner name relation target ownerColumn
      targetColumn) (valid : registry.validate = .ok ()) :
    ∃ liveColumn : Option Column,
      CountColumn.ofAggregate registry owner ⟨name⟩ =
        .ok ⟨AggregateRequest.alias ⟨name⟩, target.model, targetColumn, ownerColumn, liveColumn⟩ ∧
      (target.softDeletes = true → ∃ column,
        target.model.column? target.deletedAtColumn = some column ∧ liveColumn = some column) ∧
      (target.softDeletes = false → liveColumn = none) := by
  have isRelation : owner.relation name = .ok relation := by
    rw [Resource.relation, countable.declared]
  have isTarget : registry.resource relation.target = .ok target := by
    rw [Registry.resource, countable.known]
  have isOwnerColumn : queryColumn owner.model (relation.joiningFields owner target).1 =
      .ok ownerColumn := by
    rw [queryColumn, countable.joinsOwner]
  have isTargetColumn : queryColumn target.model (relation.joiningFields owner target).2 =
      .ok targetColumn := by
    rw [queryColumn, countable.joinsTarget]
  cases softDeletes : target.softDeletes with
  | false =>
      refine ⟨none, ?_, nofun, fun _ => rfl⟩
      simp only [CountColumn.ofAggregate, isRelation, isTarget, isOwnerColumn, isTargetColumn,
        softDeletes, bind, Except.bind, Bool.false_eq_true, if_false]
  | true =>
      have isColumn := Registry.deletedAt_mem_columns valid
        (List.mem_of_find?_eq_some countable.known) softDeletes
      obtain ⟨column, found⟩ := Model.exists_column? isColumn
      have named : queryColumn target.model target.deletedAtColumn = .ok column := by
        rw [queryColumn, found]
      refine ⟨some column, ?_, fun _ => ⟨column, found, rfl⟩, nofun⟩
      simp only [CountColumn.ofAggregate, isRelation, isTarget, isOwnerColumn, isTargetColumn,
        softDeletes, named, bind, Except.bind, if_true]
      rfl

/-- Both stores count the same rows for a row and the record that it keeps. -/
theorem Countable.agrees (countable : Countable registry owner name relation target ownerColumn
      targetColumn) {contents : Contents} {table : Table} {liveColumn : Option Column}
    (same : SameRows target.model (contents.table target.name).rows (table.rows.map Prod.snd))
    (trashes : target.softDeletes = true → ∃ column,
      target.model.column? target.deletedAtColumn = some column ∧ liveColumn = some column)
    (keepsAll : target.softDeletes = false → liveColumn = none)
    {record : Record} {row : Row} (mirrors : RowKeeps owner.model record row) :
    contents.relatedCount registry owner name record =
      .ok (countFor ⟨AggregateRequest.alias ⟨name⟩, target.model, targetColumn, ownerColumn, liveColumn⟩
        table row) := by
  have isRelation : owner.relation name = .ok relation := by
    rw [Resource.relation, countable.declared]
  have isTarget : registry.resource relation.target = .ok target := by
    rw [Registry.resource, countable.known]
  have keeps := mirrors.of_column? countable.joinsOwner
  rw [Contents.relatedCount, isRelation]
  change (registry.resource relation.target >>= _) = _
  rw [isTarget]
  change (if (record.get (relation.joiningFields owner target).1).isNull then _ else _) = _
  rw [countFor]
  cases null : (record.get (relation.joiningFields owner target).1).isNull with
  | true =>
      rw [if_pos rfl, eq_comm]
      congr 2
      rw [List.countP_eq_zero]
      intro other _ counted
      rw [joins_null (.inr (keeps.isNull.trans null)), Bool.false_and] at counted
      cases counted
  | false =>
      rw [if_neg Bool.false_ne_true]
      congr 2
      apply same.countP_eq
      intro related relatedRow relatedMirrors
      have keepsRelated := relatedMirrors.keeps.of_column? countable.joinsTarget
      rw [joins_eq countable.joinable keeps keepsRelated null]
      congr 1
      cases softDeletes : target.softDeletes with
      | false => simp [keepsAll softDeletes, Resource.isTrashed, softDeletes]
      | true =>
          obtain ⟨column, found, live⟩ := trashes softDeletes
          have keepsLive := relatedMirrors.keeps.of_column? found
          simp [live, Resource.isTrashed, softDeletes, keepsLive.isNull]

end Counts

end Sql

end ResourceServer
