import ResourceServer.Error

/-!
# Configuration documents

A document is a scalar, a sequence, a set or a mapping. The keys of a mapping are scalars of any kind, each of
them occurring once. Beside the values of requests a scalar can be a date without a time of day, or a string
of bytes.
-/

namespace ResourceServer

/-- A scalar of a document. -/
inductive Scalar
  | value (value : Value)
  /-- A date; its time of day is none. -/
  | date (day : Moment)
  | bytes (bytes : List UInt8)
deriving Repr, Inhabited

namespace Scalar

/-- Whether a scalar is found where another one is looked for. -/
def coincides : Scalar → Scalar → Bool
  | .value left, .value right => left.coincides right
  | .date left, .date right => left == right
  | .bytes left, .bytes right => left == right
  | _, _ => false

/-- A byte inside quotes. -/
def quoteByte (quote : Char) (byte : UInt8) : String :=
  let character := Char.ofNat byte.toNat
  if 0x80 ≤ byte.toNat then "\\x" ++ Text.hexadecimal 2 byte.toNat else Text.quoteCharacter quote character

/-- Bytes in quotes: single ones, unless there are single quotes and no double ones among the bytes. -/
def quotedBytes (bytes : List UInt8) : String :=
  let characters := bytes.map fun byte => Char.ofNat byte.toNat
  let quote := if characters.contains '\'' && !characters.contains '"' then '"' else '\''
  "b" ++ String.singleton quote ++ String.join (bytes.map (quoteByte quote)) ++ String.singleton quote

/-- A scalar as messages show it. -/
def describe : Scalar → String
  | .value known => known.describe
  | .date day => s!"datetime.date({day.year}, {day.month}, {day.day})"
  | .bytes sequence => quotedBytes sequence

/-- The text of a scalar. -/
def plain : Scalar → String
  | .value known => known.plain
  | .date day => day.dateText
  | .bytes sequence => quotedBytes sequence

/-- The value of a scalar; a date and bytes are none. -/
def toValue : Scalar → Except Error Value
  | .value known => .ok known
  | _ => .error (.plain .type)

/-- The value that a report shows for a scalar: bytes count as the text they encode. -/
def shown : Scalar → Value
  | .value known => known
  | .date _ => .null
  | .bytes sequence => (String.fromUTF8? ⟨sequence.toArray⟩).elim .null .text

/-- Order of two scalars. -/
def compareWith : Scalar → Scalar → Comparison
  | .value left, .value right => left.compareWith right
  | .date left, .date right => .ordered (compare left.dayNumber right.dayNumber)
  | .bytes left, .bytes right => .ordered (compare (left.map UInt8.toNat) (right.map UInt8.toNat))
  | _, _ => .incomparable

/-- The scalars in their order; those without a common order have none. -/
def sorted? (scalars : List Scalar) : Option (List Scalar) :=
  let unordered := scalars.any fun left => scalars.any fun right => left.compareWith right == .incomparable
  if unordered && 1 < scalars.length then none
  else some (scalars.mergeSort fun left right => left.compareWith right != .ordered .gt)

end Scalar

/-- A configuration document. -/
inductive Document
  | scalar (scalar : Scalar)
  | sequence (items : List Document)
  | set (members : List Scalar)
  | mapping (entries : List (Scalar × Document))
deriving Repr, Inhabited

namespace Document

/-- Sets a key, in its place when it is there already. -/
def put {α : Type} (key : Scalar) (part : α) : List (Scalar × α) → List (Scalar × α)
  | [] => [(key, part)]
  | entry :: rest =>
      if entry.1.coincides key then (entry.1, part) :: rest else entry :: put key part rest

/-- The document under a text key. -/
def find? (name : String) (entries : List (Scalar × Document)) : Option Document :=
  (entries.find? fun entry => entry.1.coincides (.value (.text name))).map Prod.snd

mutual

/-- The document of a value. -/
def ofValue : Value → Document
  | .list items => .sequence (ofItems items)
  | .object members => .mapping (ofMembers members)
  | value => .scalar (.value value)

/-- The documents of the items of a list. -/
def ofItems : List Value → List Document
  | [] => []
  | item :: rest => ofValue item :: ofItems rest

/-- The entries of the members of an object. -/
def ofMembers : List (String × Value) → List (Scalar × Document)
  | [] => []
  | (name, value) :: rest => (.value (.text name), ofValue value) :: ofMembers rest

end

/-- The parts of a value that stands for a pair, if it has parts at all. -/
def pairParts? : Value → Option (List Value)
  | .text text => some (text.toList.map fun character => .text (String.singleton character))
  | .list items => some items
  | .object members => some (members.map fun member => .text member.1)
  | _ => none

/-- Adds pairs to the entries of a mapping, from a position on. -/
def addPairs : (position : Nat) → List Value → List (Scalar × Document) →
    Except Error (List (Scalar × Document))
  | _, [], entries => .ok entries
  | position, pair :: rest, entries =>
      match pairParts? pair with
      | none => .error (.plain .type)
      | some [key, value] =>
          if key.isKey then addPairs (position + 1) rest (put (.value key) (ofValue value) entries)
          else .error (.plain .type)
      | some parts => .error (.value (.pairLength position parts.length))

/-- The entries that a value stands for: the members of an object, or the pairs of a list or text. -/
def entriesOf (value : Value) : Except Error (List (Scalar × Document)) :=
  match value with
  | .object members => .ok (ofMembers members)
  | other =>
      match other, pairParts? other with
      | .text _, some pairs => addPairs 0 pairs []
      | .list _, some pairs => addPairs 0 pairs []
      | _, _ => .error (.plain .type)

end Document

end ResourceServer
