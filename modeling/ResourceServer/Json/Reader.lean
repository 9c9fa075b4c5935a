import ResourceServer.Value
import ResourceServer.Numeric.Numeral

/-!
# Reading interchange text

`Json.read` reads one value and nothing after it. A failure names the place of the fault by its
offset, line and column. A member that is named twice keeps its first place and its last value. The
words `NaN`, `Infinity` and `-Infinity` are read as doubles. Lists and objects can only be nested up to a limit.
-/

namespace ResourceServer.Json

/-- What is wrong at a place of the text. -/
inductive FaultKind
  | expectingValue
  | expectingComma
  | expectingColon
  | expectingName
  | extraData
  | unterminatedText
  | controlCharacter
  | malformedEscape
  | malformedCodeEscape
  | byteOrderMark
deriving DecidableEq, Repr

/-- Why a text is no value. -/
inductive Fault
  | malformed (kind : FaultKind) (offset : Nat)
  | integerTooLong (digits : Nat)
  | tooDeep
deriving DecidableEq, Repr

namespace FaultKind

/-- The description of a fault. -/
def message : FaultKind → String
  | .expectingValue => "Expecting value"
  | .expectingComma => "Expecting ',' delimiter"
  | .expectingColon => "Expecting ':' delimiter"
  | .expectingName => "Expecting property name enclosed in double quotes"
  | .extraData => "Extra data"
  | .unterminatedText => "Unterminated string starting at"
  | .controlCharacter => "Invalid control character at"
  | .malformedEscape => "Invalid \\escape"
  | .malformedCodeEscape => "Invalid \\uXXXX escape"
  | .byteOrderMark => "Unexpected UTF-8 BOM (decode using utf-8-sig)"

/-- The description of a fault with the place in the text. -/
def messageAt (kind : FaultKind) (text : String) (offset : Nat) : String :=
  let before := text.toList.take offset
  let line := before.count '\n' + 1
  let column := (before.reverse.takeWhile (· ≠ '\n')).length + 1
  s!"{kind.message}: line {line} column {column} (char {offset})"

end FaultKind

/-- What is left of the text, and how much is read already. -/
structure Cursor where
  offset : Nat
  rest : List Char

namespace Cursor

/-- Moves over a number of characters. -/
def skip (cursor : Cursor) (count : Nat) : Cursor :=
  ⟨cursor.offset + count, cursor.rest.drop count⟩

/-- Whether a character separates tokens. -/
def isSpace (character : Char) : Bool :=
  character = ' ' || character = '\t' || character = '\n' || character = '\r'

/-- Moves over separating characters. -/
def skipSpace (cursor : Cursor) : Cursor :=
  cursor.skip (cursor.rest.takeWhile isSpace).length

end Cursor

/-- The outcome of reading at a cursor. -/
abbrev Step (α : Type) := Except Fault (α × Cursor)

/-- The number that four hexadecimal digits spell. -/
def codeUnit? (characters : List Char) : Option Nat :=
  match (characters.take 4).mapM Text.hexDigit? with
  | some [a, b, c, d] => some (((a * 16 + b) * 16 + c) * 16 + d)
  | _ => none

/-- The character of a code point; halves of a surrogate pair that stand alone are replaced. -/
def characterOf (code : Nat) : Char :=
  if 0xd800 ≤ code ∧ code < 0xe000 then '\ufffd' else Char.ofNat code

/-- The character that a one-letter escape stands for. -/
def shortEscape? : Char → Option Char
  | '"' => some '"'
  | '\\' => some '\\'
  | '/' => some '/'
  | 'b' => some '\x08'
  | 'f' => some '\x0c'
  | 'n' => some '\n'
  | 'r' => some '\r'
  | 't' => some '\t'
  | _ => none

/-- Reads the escape whose backslash and `u` stand before the cursor: one code unit, or two that
form a pair. -/
def readCodeEscape (cursor : Cursor) : Step Char :=
  let fault : Fault := .malformed .malformedCodeEscape (cursor.offset - 1)
  if cursor.rest.length < 5 then .error fault
  else
    match codeUnit? cursor.rest with
    | none => .error fault
    | some unit =>
        let next := cursor.skip 4
        if 0xd800 ≤ unit ∧ unit < 0xdc00 ∧ 6 < next.rest.length
            ∧ next.rest.take 2 = ['\\', 'u'] then
          match codeUnit? (next.rest.drop 2) with
          | none => .error (.malformed .malformedCodeEscape (next.offset + 1))
          | some second =>
              if 0xdc00 ≤ second ∧ second < 0xe000 then
                .ok (Char.ofNat (0x10000 + (unit - 0xd800) * 0x400 + (second - 0xdc00)), next.skip 6)
              else .ok (characterOf unit, next)
        else .ok (characterOf unit, next)

/-- Reads the rest of a quoted text; `start` is the place of its opening quote. -/
def readText (start : Nat) : (fuel : Nat) → Cursor → List Char → Step String
  | 0, _, _ => .error (.malformed .unterminatedText start)
  | fuel + 1, cursor, read =>
      match cursor.rest with
      | [] => .error (.malformed .unterminatedText start)
      | '"' :: rest => .ok (String.ofList read.reverse, ⟨cursor.offset + 1, rest⟩)
      | '\\' :: [] => .error (.malformed .unterminatedText start)
      | '\\' :: 'u' :: rest =>
          match readCodeEscape ⟨cursor.offset + 2, rest⟩ with
          | .error fault => .error fault
          | .ok (character, next) => readText start fuel next (character :: read)
      | '\\' :: letter :: rest =>
          match shortEscape? letter with
          | some character =>
              readText start fuel ⟨cursor.offset + 2, rest⟩ (character :: read)
          | none => .error (.malformed .malformedEscape cursor.offset)
      | character :: rest =>
          if character.toNat < 0x20 then .error (.malformed .controlCharacter cursor.offset)
          else readText start fuel ⟨cursor.offset + 1, rest⟩ (character :: read)

/-- The ASCII digits at the front. -/
def leadingDigits (characters : List Char) : List Char := characters.takeWhile Char.isDigit

/-- The number of characters of a fraction at the front: a point and at least one digit. -/
def fractionLength : List Char → Nat
  | '.' :: rest =>
      let count := (leadingDigits rest).length
      if count = 0 then 0 else count + 1
  | _ => 0

/-- The number of characters of a power of ten at the front. -/
def exponentLength : List Char → Nat
  | mark :: rest =>
      if mark = 'e' ∨ mark = 'E' then
        let sign :=
          match rest with
          | '+' :: _ => 1
          | '-' :: _ => 1
          | _ => 0
        let count := (leadingDigits (rest.drop sign)).length
        if count = 0 then 0 else 1 + sign + count
      else 0
  | [] => 0

/-- Reads a number: a whole one, or a double if it has a fraction or a power of ten. -/
def readNumber (cursor : Cursor) : Step Value :=
  let sign := if cursor.rest.head? = some '-' then 1 else 0
  let body := cursor.rest.drop sign
  let whole :=
    match body with
    | '0' :: _ => 1
    | _ => (leadingDigits body).length
  if whole = 0 then .error (.malformed .expectingValue cursor.offset)
  else
    let fraction := fractionLength (body.drop whole)
    let exponent := exponentLength (body.drop (whole + fraction))
    let length := sign + whole + fraction + exponent
    let numeral := String.ofList (cursor.rest.take length)
    let next := cursor.skip length
    if fraction + exponent = 0 then
      match Numeral.readInt numeral with
      | .ok value => .ok (.int value, next)
      | .error _ => .error (.integerTooLong whole)
    else .ok (.float ((Numeral.readFloat? numeral).getD (.nan 0)), next)

/-- The mark of the NaN that the texts of this format spell: it is one and the same everywhere. -/
def sharedNaN : Nat := 1

/-- Words that stand for a value. -/
def keywords : List (String × Value) := [
  ("null", .null), ("true", .bool true), ("false", .bool false), ("NaN", .float (.nan sharedNaN)),
  ("Infinity", .float (.infinite false)), ("-Infinity", .float (.infinite true))]

/-- The keyword at the front of a text. -/
def keywordAt? (characters : List Char) : Option (String × Value) :=
  keywords.find? fun entry => entry.1.toList.isPrefixOf characters

mutual

/-- Reads a value at the cursor. The fuel bounds the number of steps, and lists and objects can be nested `depth`
times. -/
def readValue (depth : Nat) : (fuel : Nat) → Cursor → Step Value
  | 0, cursor => .error (.malformed .expectingValue cursor.offset)
  | fuel + 1, cursor =>
      match cursor.rest, depth with
      | '"' :: rest, _ =>
          match readText cursor.offset (rest.length + 1) ⟨cursor.offset + 1, rest⟩ [] with
          | .ok (text, next) => .ok (.text text, next)
          | .error fault => .error fault
      | '[' :: _, 0 => .error .tooDeep
      | '\x7b' :: _, 0 => .error .tooDeep
      | '[' :: rest, depth + 1 =>
          let inside := Cursor.skipSpace ⟨cursor.offset + 1, rest⟩
          match inside.rest with
          | ']' :: rest => .ok (.list [], ⟨inside.offset + 1, rest⟩)
          | _ => readItems depth fuel inside []
      | '\x7b' :: rest, depth + 1 =>
          let inside := Cursor.skipSpace ⟨cursor.offset + 1, rest⟩
          match inside.rest with
          | '\x7d' :: rest => .ok (.object [], ⟨inside.offset + 1, rest⟩)
          | _ => readMembers depth fuel inside []
      | _, _ =>
          match keywordAt? cursor.rest with
          | some (word, value) => .ok (value, cursor.skip word.length)
          | none => readNumber cursor
termination_by structural fuel => fuel

/-- Reads the items of a list up to its closing bracket. -/
def readItems (depth : Nat) : (fuel : Nat) → Cursor → List Value → Step Value
  | 0, cursor, _ => .error (.malformed .expectingValue cursor.offset)
  | fuel + 1, cursor, read =>
      match readValue depth fuel cursor with
      | .error fault => .error fault
      | .ok (item, next) =>
          let next := next.skipSpace
          match next.rest with
          | ']' :: rest => .ok (.list (item :: read).reverse, ⟨next.offset + 1, rest⟩)
          | ',' :: rest =>
              readItems depth fuel (Cursor.skipSpace ⟨next.offset + 1, rest⟩) (item :: read)
          | _ => .error (.malformed .expectingComma next.offset)
termination_by structural fuel => fuel

/-- Reads the members of an object up to its closing brace. -/
def readMembers (depth : Nat) : (fuel : Nat) → Cursor → Record → Step Value
  | 0, cursor, _ => .error (.malformed .expectingName cursor.offset)
  | fuel + 1, cursor, read =>
      match cursor.rest with
      | '"' :: rest =>
          match readText cursor.offset (rest.length + 1) ⟨cursor.offset + 1, rest⟩ [] with
          | .error fault => .error fault
          | .ok (name, next) =>
              let next := next.skipSpace
              match next.rest with
              | ':' :: rest =>
                  match readValue depth fuel (Cursor.skipSpace ⟨next.offset + 1, rest⟩) with
                  | .error fault => .error fault
                  | .ok (value, next) =>
                      let next := next.skipSpace
                      let read := Record.set read name value
                      match next.rest with
                      | '\x7d' :: rest => .ok (.object read, ⟨next.offset + 1, rest⟩)
                      | ',' :: rest =>
                          readMembers depth fuel (Cursor.skipSpace ⟨next.offset + 1, rest⟩) read
                      | _ => .error (.malformed .expectingComma next.offset)
              | _ => .error (.malformed .expectingColon next.offset)
      | _ => .error (.malformed .expectingName cursor.offset)
termination_by structural fuel => fuel

end

/-- How often lists and objects can be nested in a text. -/
def depthLimit : Nat := 985

/-- Reads characters that hold one value, with lists and objects nested up to a depth. -/
def readCharacters (characters : List Char) (depth : Nat := depthLimit) : Except Fault Value :=
  match readValue depth (2 * characters.length + 2) (Cursor.skipSpace ⟨0, characters⟩) with
  | .error fault => .error fault
  | .ok (value, next) =>
      let next := next.skipSpace
      if next.rest.isEmpty then .ok value else .error (.malformed .extraData next.offset)

/-- Reads a text that holds one value. The text has no byte order mark in front. -/
def read (text : String) (depth : Nat := depthLimit) : Except Fault Value :=
  let characters := text.toList
  if characters.head? = some '\ufeff' then .error (.malformed .byteOrderMark 0)
  else readCharacters characters depth

end ResourceServer.Json
