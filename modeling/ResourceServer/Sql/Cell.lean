import ResourceServer.Schema.Model
import ResourceServer.Sql.Real

/-!
# Stored cells

A cell of a database table holds a whole number of 64 bits, a double, a text or nothing. Cells of all
kinds stand in one order: nothing first, then numbers by their value, then texts by their characters. A
column has an affinity, a kind of cell that it prefers: what is written to it or compared with it is
converted when the conversion loses nothing.
-/

namespace ResourceServer.Sql

/-- A cell of a table. -/
inductive Cell
  | null
  | integer (value : Int)
  | real (value : Binary64)
  | text (value : String)
deriving DecidableEq, Repr, Inhabited

/-- The kind of cell that a column prefers. -/
inductive Affinity
  | text
  | numeric
  | real
deriving DecidableEq, Repr

/-- The affinity of a column type. -/
def Affinity.ofType : ColumnType → Affinity
  | .text => .text
  | .real => .real
  | .integer | .boolean | .moment | .untyped => .numeric

/-- The first whole number that does not fit into a signed word of 64 bits. -/
def wordLimit : Int := 0x8000000000000000

/-- Whether a whole number fits into a word. -/
def fitsWord (value : Int) : Bool := -wordLimit ≤ value && value < wordLimit

namespace Cell

/-- Whether there is nothing in the cell. -/
def isNull : Cell → Bool
  | .null => true
  | _ => false

/-! ## Numbers as text -/

/-- The text of a cell that holds something. -/
def text? : Cell → Option String
  | .null => none
  | .integer value => some (toString value)
  | .real value => some (realText value)
  | .text value => some value

/-! ## Text as numbers -/

/-- Whether a character may stand around a number. -/
def isSpace (character : Char) : Bool :=
  character == ' ' || (0x09 ≤ character.toNat && character.toNat ≤ 0x0d)

/-- The number that the digits of a power of ten spell; beyond five digits it is cut. -/
def limitedExponent (digits : List Char) : Nat :=
  digits.foldl (fun total digit =>
    if total < 10000 then total * 10 + (digit.toNat - '0'.toNat) else 10000) 0

/-- Reads a power of ten: nothing, or a mark with an optional sign and at least one digit. -/
def exponent? : List Char → Option Int
  | [] => some 0
  | mark :: rest =>
      if mark = 'e' ∨ mark = 'E' then
        let (negative, digits) :=
          match rest with
          | '-' :: digits => (true, digits)
          | '+' :: digits => (false, digits)
          | digits => (false, digits)
        if digits.isEmpty || !digits.all Char.isDigit then none
        else some (if negative then -(limitedExponent digits : Int) else limitedExponent digits)
      else none

/-- Reads an unsigned number: digits, an optional fraction and an optional power of ten. Without these
two it is a whole number, if it fits into 64 bits. -/
def unsigned? (negative : Bool) (characters : List Char) : Option Cell :=
  let whole := characters.takeWhile Char.isDigit
  let real (fraction rest : List Char) : Option Cell := do
    if whole.isEmpty && fraction.isEmpty then none
    else
      let exponent ← exponent? rest
      some (.real (readReal negative whole fraction exponent))
  match characters.dropWhile Char.isDigit with
  | [] =>
      let value : Int := if negative then -(Text.numberOf whole : Int) else Text.numberOf whole
      if !whole.isEmpty && fitsWord value then some (.integer value) else real [] []
  | '.' :: rest => real (rest.takeWhile Char.isDigit) (rest.dropWhile Char.isDigit)
  | rest => real [] rest

/-- The number that a text spells; spaces around it do not count. -/
def ofNumeral? (spelled : String) : Option Cell :=
  let trimmed := ((spelled.toList.dropWhile isSpace).reverse.dropWhile isSpace).reverse
  match trimmed with
  | '-' :: rest => unsigned? true rest
  | '+' :: rest => unsigned? false rest
  | characters => unsigned? false characters

/-! ## Conversions -/

/-- A cell as a number, when it is a text that spells one. -/
def asNumber : Cell → Cell
  | .text spelled => (ofNumeral? spelled).getD (.text spelled)
  | cell => cell

/-- A number as text. -/
def asText : Cell → Cell
  | .integer value => .text (toString value)
  | .real value => .text (realText value)
  | cell => cell

/-- A double that is whole, and well within a word, as a whole number. -/
def asWhole : Cell → Cell
  | .real value =>
      match value.toInt? with
      | some whole => if -wordLimit < whole ∧ whole < wordLimit - 1 then .integer whole else .real value
      | none => .real value
  | cell => cell

/-- A whole number as a double. -/
def asReal : Cell → Cell
  | .integer value => .real (.ofInt value)
  | cell => cell

end Cell

namespace Affinity

/-- The cell that a column keeps when a cell is written to it. -/
def stored : Affinity → Cell → Cell
  | .text, cell => cell.asText
  | .numeric, cell => cell.asNumber.asWhole
  | .real, cell => cell.asNumber.asWhole.asReal

/-- What a cell counts as when it is compared with a column. -/
def compared : Affinity → Cell → Cell
  | .text, cell => cell.asText
  | .numeric, cell => cell.asNumber
  | .real, cell => cell.asNumber

end Affinity

namespace Cell

/-- The order of all cells. -/
def order : Cell → Cell → Ordering
  | .null, .null => .eq
  | .null, _ => .lt
  | _, .null => .gt
  | .text left, .text right => compare left right
  | .text _, _ => .gt
  | _, .text _ => .lt
  | .integer left, .integer right => compare left right
  | .integer left, .real right => ((right.orderInt? left).map Ordering.swap).getD .eq
  | .real left, .integer right => (left.orderInt? right).getD .eq
  | .real left, .real right => (left.order? right).getD .eq

/-- The order in which a cell of a column stands to another cell, nothing when one of them is empty. -/
def orderUnder? (affinity : Affinity) (left right : Cell) : Option Ordering :=
  if left.isNull || right.isNull then none
  else some ((affinity.compared left).order (affinity.compared right))

end Cell

end ResourceServer.Sql
