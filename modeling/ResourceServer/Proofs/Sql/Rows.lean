import Mathlib.Data.List.Pairwise
import ResourceServer.Proofs.Entries
import ResourceServer.Proofs.Sql.Forms

/-!
# Rows and their numbers

The rows of a table stand in the order of their numbers, which are all different.  A row that is
put in its place is one more row of the table, and the row that is put there last has the
greatest number.  What is written to a row is found in the columns that are written, and all
other columns keep their cells.
-/

namespace ResourceServer.Sql

namespace Row

variable {row : Row} {model : Model} {name other : String} {cell : Cell}

theorem names_withCell : (row.withCell name cell).map Prod.fst = row.map Prod.fst := by
  rw [withCell, List.map_map]
  refine List.map_congr_left fun entry _ => ?_
  simp only [Function.comp_apply]
  split
  · rename_i same
    exact (beq_iff_eq.mp same).symm
  · rfl

theorem cell_withCell (present : name ∈ row.map Prod.fst) :
    (row.withCell name cell).cell other = if other = name then cell else row.cell other := by
  have found : (row.lookup name).isSome = true := by
    obtain ⟨entry, isEntry, rfl⟩ := List.mem_map.mp present
    rw [Entries.lookup_isSome, List.any_eq_true]
    exact ⟨entry, isEntry, beq_self_eq_true entry.1⟩
  obtain ⟨current, found⟩ := Option.isSome_iff_exists.mp found
  rw [Row.cell, withCell, Entries.lookup_overwrite, found]
  split
  · rfl
  · rfl

theorem cell_of_not_mem (absent : name ∉ row.map Prod.fst) : row.cell name = .null := by
  have missing : (row.lookup name).isSome = false := by
    rw [Entries.lookup_isSome, List.any_eq_false]
    rintro entry isEntry same
    exact absent (List.mem_map.mpr ⟨entry, isEntry, beq_iff_eq.mp same⟩)
  rw [Row.cell, Option.isSome_eq_false_iff.mp missing |> Option.isNone_iff_eq_none.mp]
  rfl

end Row

namespace Table

variable {row : Row} {values : List (Column × Cell)} {name : String}

theorem names_writeCells : (writeCells row values).map Prod.fst = row.map Prod.fst := by
  induction values generalizing row with
  | nil => rfl
  | cons entry values induction =>
      rw [writeCells, List.foldl_cons]
      exact induction.trans Row.names_withCell

theorem cell_writeCells_other (unwritten : name ∉ values.map fun entry => entry.1.name)
    (present : ∀ entry ∈ values, entry.1.name ∈ row.map Prod.fst) :
    (writeCells row values).cell name = row.cell name := by
  induction values generalizing row with
  | nil => rfl
  | cons entry values induction =>
      rw [List.forall_mem_cons] at present
      rw [List.map_cons, List.mem_cons, not_or] at unwritten
      rw [writeCells, List.foldl_cons]
      have presentLater : ∀ other ∈ values, other.1.name ∈
          (row.withCell entry.1.name ((columnAffinity entry.1).stored entry.2)).map Prod.fst := by
        rw [Row.names_withCell]
        exact present.2
      have later := induction unwritten.2 presentLater
      rw [writeCells] at later
      rw [later, Row.cell_withCell present.1, if_neg unwritten.1]

/-- Every written column has what it stores of the cell that is written to it. -/
theorem cell_writeCells (distinct : (values.map fun entry => entry.1.name).Nodup)
    (present : ∀ entry ∈ values, entry.1.name ∈ row.map Prod.fst) {entry : Column × Cell}
    (written : entry ∈ values) :
    (writeCells row values).cell entry.1.name = (columnAffinity entry.1).stored entry.2 := by
  induction values generalizing row with
  | nil => cases written
  | cons first values induction =>
      rw [List.forall_mem_cons] at present
      rw [List.map_cons, List.nodup_cons] at distinct
      have presentLater : ∀ entry ∈ values, entry.1.name ∈
          (row.withCell first.1.name ((columnAffinity first.1).stored first.2)).map Prod.fst := by
        rw [Row.names_withCell]
        exact present.2
      rw [writeCells, List.foldl_cons]
      cases List.mem_cons.mp written with
      | inl isFirst =>
          subst isFirst
          have kept := cell_writeCells_other distinct.1 presentLater
          rw [writeCells] at kept
          rw [kept, Row.cell_withCell present.1, if_pos rfl]
      | inr later => exact induction distinct.2 presentLater later

end Table

/-! ## Numbers -/

/-- Rows in the order of their numbers. -/
def Ascending (rows : List (Int × Row)) : Prop := rows.Pairwise fun left right => left.1 < right.1

namespace Ascending

variable {rows : List (Int × Row)} {number : Int} {row : Row}

theorem eq_of_number (ascending : Ascending rows) {left right : Int × Row} (isLeft : left ∈ rows)
    (isRight : right ∈ rows) (same : left.1 = right.1) : left = right := by
  by_contra different
  have symmetric : Std.Symm fun left right : Int × Row => left.1 ≠ right.1 :=
    ⟨fun _ _ apart => apart.symm⟩
  have apart : rows.Pairwise fun left right => left.1 ≠ right.1 :=
    ascending.imp fun before => ne_of_lt before
  exact apart.forall isLeft isRight different same

/-- The rows behind those of smaller numbers have greater numbers. -/
theorem le_of_mem_dropWhile (ascending : Ascending rows) {entry : Int × Row}
    (behind : entry ∈ rows.dropWhile fun entry => entry.1 < number) : number ≤ entry.1 := by
  induction rows with
  | nil => cases behind
  | cons first rows induction =>
      rw [Ascending, List.pairwise_cons] at ascending
      rw [List.dropWhile_cons] at behind
      split at behind
      · exact induction ascending.2 behind
      · rename_i notBefore
        rw [decide_eq_true_eq, not_lt] at notBefore
        cases List.mem_cons.mp behind with
        | inl isFirst => rwa [isFirst]
        | inr later => exact notBefore.trans (ascending.1 entry later).le

theorem remove (ascending : Ascending rows) (test : Int × Row → Bool) :
    Ascending (rows.filter test) :=
  ascending.sublist List.filter_sublist

end Ascending

namespace Table

variable {table : Table} {number : Int} {row : Row}

theorem place_perm : (table.place number row).rows.Perm ((number, row) :: table.rows) := by
  refine List.perm_middle.trans (List.Perm.cons _ ?_)
  rw [List.takeWhile_append_dropWhile]

/-- A row that is put in its place stands among the other ones by its number. -/
theorem place_ascending (ascending : Ascending table.rows)
    (free : ∀ entry ∈ table.rows, entry.1 ≠ number) : Ascending (table.place number row).rows := by
  have before : ∀ entry ∈ table.rows.takeWhile (fun entry => entry.1 < number),
      entry.1 < number := by
    intro entry member
    simpa using List.mem_takeWhile_imp member
  have behind : ∀ entry ∈ table.rows.dropWhile (fun entry => entry.1 < number),
      number < entry.1 := by
    intro entry member
    have differs := free entry ((List.dropWhile_sublist _).subset member)
    have atLeast := ascending.le_of_mem_dropWhile member
    omega
  refine List.pairwise_append.mpr
    ⟨ascending.sublist (List.takeWhile_sublist _), List.pairwise_cons.mpr
      ⟨behind, ascending.sublist (List.dropWhile_sublist _)⟩, ?_⟩
  intro left isLeft right isRight
  cases List.mem_cons.mp isRight with
  | inl isNew => rw [isNew]; exact before left isLeft
  | inr isRight => exact (before left isLeft).trans (behind right isRight)

/-- The next number comes after the greatest one. -/
theorem nextNumber_eq (ascending : Ascending table.rows) {greatest : Int}
    (present : ∃ entry ∈ table.rows, entry.1 = greatest)
    (atMost : ∀ entry ∈ table.rows, entry.1 ≤ greatest) : table.nextNumber = greatest + 1 := by
  obtain ⟨entry, isEntry, rfl⟩ := present
  unfold nextNumber
  cases last : table.rows.getLast? with
  | none =>
      rw [List.getLast?_eq_none_iff.mp last] at isEntry
      cases isEntry
  | some final =>
      obtain ⟨before, isRows⟩ := List.getLast?_eq_some_iff.mp last
      rw [Ascending, isRows, List.pairwise_append] at ascending
      have isFinal : final ∈ table.rows := by simp [isRows]
      have atLeast : entry.1 ≤ final.1 := by
        rw [isRows, List.mem_append, List.mem_singleton] at isEntry
        cases isEntry with
        | inl earlier => exact (ascending.2.2 entry earlier final (by simp)).le
        | inr same => rw [same]
      have := atMost final isFinal
      dsimp only
      omega

end Table

end ResourceServer.Sql
