import ResourceServer.Numeric.Binary64
import ResourceServer.Moment

/-!
# Dynamic values

Request bodies, stored columns and filter operands are values of one type. Booleans, integers and
doubles are numbers: they are equal and ordered as the numbers they stand for, without rounding.
Texts are ordered by code point and lists by their first difference. Objects are maps, so the order of
their members does not count.
-/

namespace ResourceServer

/-- A value of a request, a column or an operand. -/
inductive Value
  | null
  | bool (value : Bool)
  | int (value : Int)
  | float (value : Binary64)
  | text (value : String)
  | moment (value : Moment)
  | list (items : List Value)
  | object (members : List (String × Value))
deriving Repr, Inhabited

/-- Named values in a fixed order: a row, the attributes of an entity, the body of a request. -/
abbrev Record := List (String × Value)

/-- The outcome of ordering two values. -/
inductive Comparison
  /-- The values have no common order. -/
  | incomparable
  /-- The values have a common order, in which they stand nowhere. -/
  | unordered
  | ordered (ordering : Ordering)
deriving DecidableEq, Repr

/-- The comparison that an order of numbers gives. -/
def Comparison.ofNumbers : Option Ordering → Comparison
  | some ordering => .ordered ordering
  | none => .unordered

namespace Value

/-- What a value counts as in arithmetic. -/
inductive Number
  | whole (value : Int)
  | double (value : Binary64)
deriving DecidableEq, Repr

namespace Number

/-- The exact order of two numbers; `none` when one of them is NaN. -/
def order? : Number → Number → Option Ordering
  | .whole left, .whole right => some (compare left right)
  | .whole left, .double right => (right.orderInt? left).map Ordering.swap
  | .double left, .whole right => left.orderInt? right
  | .double left, .double right => left.order? right

end Number

/-- The number a value counts as. -/
def number? : Value → Option Number
  | .bool value => some (.whole (if value then 1 else 0))
  | .int value => some (.whole value)
  | .float value => some (.double value)
  | _ => none

/-- Whether the value is null. -/
def isNull : Value → Bool
  | .null => true
  | _ => false

/-- Whether the value is a list. -/
def isList : Value → Bool
  | .list _ => true
  | _ => false

/-- Whether the value can be a key: everything but lists and objects. -/
def isKey : Value → Bool
  | .list _ => false
  | .object _ => false
  | _ => true

/-- Equality of two numbers. -/
def sameNumber (left right : Number) : Bool := left.order? right == some .eq

/-- Equality of a number with any value. -/
def sameAsNumber (left : Number) (right : Value) : Bool :=
  match right.number? with
  | some right => sameNumber left right
  | none => false

/-- Whether two values are one and the same NaN. -/
def isSameNaN : Value → Value → Bool
  | .float left, .float right => left.isSameNaN right
  | _, _ => false

mutual

/-- Equality of values. -/
def same : Value → Value → Bool
  | .null, right => right.isNull
  | .bool value, right => sameAsNumber (.whole (if value then 1 else 0)) right
  | .int value, right => sameAsNumber (.whole value) right
  | .float value, right => sameAsNumber (.double value) right
  | .text left, .text right => left == right
  | .moment left, .moment right => left.order? right == some .eq
  | .list left, .list right => sameItems left right
  | .object left, .object right => left.length == right.length && sameMembers left right
  | _, _ => false

/-- Equality of lists, item by item. One and the same NaN is no difference. -/
def sameItems : List Value → List Value → Bool
  | [], [] => true
  | left :: lefts, right :: rights => (isSameNaN left right || same left right) && sameItems lefts rights
  | _, _ => false

/-- Whether every member of an object is found in another. -/
def sameMembers : List (String × Value) → List (String × Value) → Bool
  | [], _ => true
  | (name, value) :: rest, others =>
      (match others.lookup name with
       | some other => isSameNaN value other || same value other
       | none => false) && sameMembers rest others

end

instance : BEq Value := ⟨same⟩

/-- Whether a value is found where another one is looked for: the two are equal, or one and the same NaN. -/
def coincides (left right : Value) : Bool := isSameNaN left right || same left right

/-- Order of two values that are not lists. -/
def compareAtoms (left right : Value) : Comparison :=
  match left, right with
  | .text left, .text right => .ordered (compare left right)
  | .moment left, .moment right =>
      match left.order? right with
      | some ordering => .ordered ordering
      | none => .incomparable
  | left, right =>
      match left.number?, right.number? with
      | some left, some right => Comparison.ofNumbers (left.order? right)
      | _, _ => .incomparable

mutual

/-- Order of two values. -/
def compareWith : Value → Value → Comparison
  | .list left, .list right => compareItems left right
  | left, right => compareAtoms left right

/-- Order of two lists: their first items that differ decide, then their lengths. -/
def compareItems : List Value → List Value → Comparison
  | [], [] => .ordered .eq
  | [], _ :: _ => .ordered .lt
  | _ :: _, [] => .ordered .gt
  | left :: lefts, right :: rights =>
      if coincides left right then compareItems lefts rights else compareWith left right

end

/-- Whether a value counts as true. -/
def isTruthy : Value → Bool
  | .null => false
  | .bool value => value
  | .int value => value != 0
  | .float value => !value.isZero
  | .text value => !value.isEmpty
  | .moment _ => true
  | .list items => !items.isEmpty
  | .object members => !members.isEmpty

/-- Whether a value is found in a list. -/
def isIn (value : Value) (items : List Value) : Bool := items.any (coincides value)

/-- The items without later ones that coincide with an earlier one. -/
def distinct (items : List Value) : List Value :=
  items.foldl (fun kept item => if isIn item kept then kept else kept ++ [item]) []

end Value

namespace Record

/-- The value of a name. -/
def get? (record : Record) (name : String) : Option Value := record.lookup name

/-- The value of a name, null when the name is missing. -/
def get (record : Record) (name : String) : Value := (record.lookup name).getD .null

/-- The names of a record. -/
def names (record : Record) : List String := record.map Prod.fst

/-- Whether a record has a name. -/
def has (record : Record) (name : String) : Bool := record.any (·.1 == name)

/-- Gives a name a value: in its place when it is there already, else at the end. -/
def set (record : Record) (name : String) (value : Value) : Record :=
  if record.has name then record.map fun entry => if entry.1 == name then (name, value) else entry
  else record ++ [(name, value)]

/-- Writes the entries of a second record over the first. -/
def merge (record changes : Record) : Record :=
  changes.foldl (fun result entry => result.set entry.1 entry.2) record

/-- The record without a name. -/
def erase (record : Record) (name : String) : Record := record.filter (·.1 != name)

/-- The listed names with their values, null where the record has none. -/
def project (record : Record) (selected : List String) : Record :=
  selected.map fun name => (name, record.get name)

end Record

end ResourceServer
