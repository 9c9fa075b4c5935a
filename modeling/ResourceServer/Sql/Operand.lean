import ResourceServer.Error
import ResourceServer.Numeric.Numeral
import ResourceServer.Sql.Cell

/-!
# Operands of statements

A value reaches the database in two steps. It is prepared first, as its column or its own kind asks for:
numbers become doubles, flags become zero or one, moments become text: in universal time for a column of
moments, and as they stand elsewhere. Then it is sent and becomes a cell;
whole numbers of more than 64 bits, lists and objects cannot be sent.
-/

namespace ResourceServer.Sql

/-- How a value is prepared before it is sent. -/
inductive Preparation
  | asGiven
  | asReal
  | asFlag
  | asMoment
  | asClock
deriving DecidableEq, Repr, Inhabited

/-- A value and how it is prepared. -/
structure Operand where
  preparation : Preparation
  value : Value
deriving Repr, Inhabited

namespace Preparation

/-- The preparation that a column type asks for. -/
def ofType : ColumnType → Preparation
  | .integer | .text | .untyped => .asGiven
  | .real => .asReal
  | .boolean => .asFlag
  | .moment => .asMoment

/-- The preparation of a value that is compared with a column. Text and moment columns ask for their
own; with other columns the kind of the value decides, if it has one of a column. -/
def ofComparison (type : ColumnType) (value : Value) : Preparation :=
  match type, value with
  | .text, _ | .moment, _ => ofType type
  | _, .bool _ => .asFlag
  | _, .int _ | _, .text _ => .asGiven
  | _, .float _ => .asReal
  | _, .moment _ => .asClock
  | _, .null | _, .list _ | _, .object _ => ofType type

/-- The double that a value stands for. -/
def realOf? : Value → Option Binary64
  | .bool value => some (.ofInt (if value then 1 else 0))
  | .int value =>
      match Binary64.ofInt value with
      | .infinite _ => none
      | number => some number
  | .float value => some value
  | .text text => Numeral.readFloat? text
  | _ => none

/-- The flag that a value stands for. -/
def flagOf? (value : Value) : Option Bool :=
  if value.same (.bool true) then some true
  else if value.same (.bool false) then some false
  else none

end Preparation

namespace Operand

/-- An operand for a column that is written. -/
def written (column : Column) (value : Value) : Operand := ⟨.ofType column.type, value⟩

/-- An operand that is compared with a column. -/
def compared (column : Column) (value : Value) : Operand := ⟨.ofComparison column.type value, value⟩

/-- The prepared value. Null needs no preparation. -/
def prepare (operand : Operand) : Except Error Value :=
  match operand.preparation, operand.value with
  | _, .null => .ok .null
  | .asGiven, value => .ok value
  | .asReal, value =>
      match Preparation.realOf? value with
      | some number => .ok (.float number)
      | none => .error (.plain .statement)
  | .asFlag, value =>
      match Preparation.flagOf? value with
      | some flag => .ok (.int (if flag then 1 else 0))
      | none => .error (.plain .statement)
  | .asMoment, .moment value =>
      match value.storedText? with
      | some stored => .ok (.text stored)
      | none => .error (.plain .statement)
  | .asClock, .moment value => .ok (.text value.clockText)
  | .asMoment, _ => .error (.plain .statement)
  | .asClock, _ => .error (.plain .statement)

end Operand

namespace Cell

/-- The cell that a prepared value is sent as. NaN is sent as nothing. -/
def ofValue : Value → Except Error Cell
  | .null => .ok .null
  | .bool value => .ok (.integer (if value then 1 else 0))
  | .int value => if fitsWord value then .ok (.integer value) else .error (.plain .overflow)
  | .float value => .ok (if value.isNaN then .null else .real value)
  | .text value => .ok (.text value)
  | .moment value => .ok (.text (value.isoText " "))
  | .list _ | .object _ => .error (.plain .binding)

/-- The moment that a stored text names, in universal time. -/
def readMoment (spelled : String) : Value :=
  match Moment.ofIso? spelled with
  | some moment => .moment { moment with offset := some 0 }
  | none => .text spelled

/-- The value that is read from a column. -/
def read (type : ColumnType) : Cell → Value
  | .null => .null
  | .integer value => if type = .boolean then .bool (value != 0) else .int value
  | .real value => if type = .boolean then .bool (!value.isZero) else .float value
  | .text value =>
      match type with
      | .boolean => .bool (!value.isEmpty)
      | .moment => readMoment value
      | _ => .text value

end Cell

end ResourceServer.Sql
