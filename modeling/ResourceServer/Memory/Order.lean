import ResourceServer.Query
import ResourceServer.Value.Printer

/-!
# Order of rows

Rows are sorted by several fields, the first one deciding before the second. Null comes before every
value. Sorting fails when two values of one field have no common order. Rows that are equal in all
fields keep the order in which they stand. A NaN comes neither before nor after a number, so where there is one
the outcome depends on which rows are compared: the rows that already form a run at the start stay together,
and every further row is put into its place by halving.
-/

namespace ResourceServer

namespace Value

/-- Whether a value comes before another one; null comes first. -/
def precedes (left right : Value) : Bool :=
  if left.isNull then !right.isNull
  else if right.isNull then false
  else !left.coincides right && left.compareWith right == .ordered .lt

/-- Whether two values can stand in one sorted field. -/
def isSortableWith (left right : Value) : Bool :=
  left.isNull || right.isNull || left.coincides right || left.compareWith right != .incomparable

/-- Whether a value is NaN. -/
def isNaN : Value → Bool
  | .float double => double.isNaN
  | _ => false

end Value

namespace Insertion

variable {α : Type}

/-- How many items at the start go on as a run, in which every item but the first passes a test with the one in
front of it. -/
def runLength (goesOn : (previous next : α) → Bool) : List α → Nat
  | previous :: next :: rest => if goesOn previous next then runLength goesOn (next :: rest) + 1 else 1
  | [_] => 1
  | [] => 0

/-- The items in which the run at the start does not descend, and the length of the run. A run that descends is
turned around. -/
def withRun (precedes : α → α → Bool) (items : List α) : List α × Nat :=
  match items with
  | first :: second :: _ =>
      if precedes second first then
        let length := runLength (fun previous next => precedes next previous) items
        ((items.take length).reverse ++ items.drop length, length)
      else (items, runLength (fun previous next => !precedes next previous) items)
  | _ => (items, items.length)

/-- The place of an item among others between two positions, found by halving. -/
def position (precedes : α → α → Bool) (others : List α) (item : α) (low high : Nat) : (budget : Nat) → Nat
  | 0 => low
  | budget + 1 =>
      if low < high then
        let middle := low + (high - low) / 2
        if (others[middle]?).any (precedes item) then position precedes others item low middle budget
        else position precedes others item (middle + 1) high budget
      else low

/-- Puts an item into its place among others. -/
def insert (precedes : α → α → Bool) (others : List α) (item : α) : List α :=
  let (before, after) := others.splitAt (position precedes others item 0 others.length others.length)
  before ++ item :: after

/-- Arranges items: the run at the start, and every further item in its place. -/
def arrange (precedes : α → α → Bool) (items : List α) : List α :=
  let (items, length) := withRun precedes items
  (items.drop length).foldl (insert precedes) (items.take length)

end Insertion

namespace Record

/-- Whether any two rows can be sorted by a field. -/
def areSortable (field : String) : List Record → Bool
  | [] => true
  | row :: rest =>
      rest.all (fun other => (row.get field).isSortableWith (other.get field)) && areSortable field rest

/-- Whether a row may stand before another one in a direction. -/
def inOrder (field : String) (direction : SortDirection) (left right : Record) : Bool :=
  match direction with
  | .ascending => !(right.get field).precedes (left.get field)
  | .descending => !(left.get field).precedes (right.get field)

/-- Arranges rows by a field that holds NaN somewhere. -/
def arrangeBy (field : String) (direction : SortDirection) (rows : List Record) : List Record :=
  let arrange := Insertion.arrange fun left right => (Record.get left field).precedes (Record.get right field)
  match direction with
  | .ascending => arrange rows
  | .descending => (arrange rows.reverse).reverse

/-- Sorts rows by one field. -/
def sortBy (field : String) (direction : SortDirection) (rows : List Record) :
    Except Error (List Record) :=
  if !areSortable field rows then .error (.plain .type)
  else if rows.any fun row => (Record.get row field).isNaN then .ok (arrangeBy field direction rows)
  else .ok (rows.mergeSort (inOrder field direction))

/-- Sorts rows by several fields. -/
def sortByAll (directives : List SortDirective) (rows : List Record) : Except Error (List Record) :=
  directives.reverse.foldlM (fun rows directive => sortBy directive.field directive.direction rows) rows

end Record

end ResourceServer
