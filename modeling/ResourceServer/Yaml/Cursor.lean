import ResourceServer.Yaml.Fault

/-!
# Positions in configuration text

A cursor stands in front of the rest of a text and knows its line and column. The end of the text counts as
a blank wherever one may end something.
-/

namespace ResourceServer.Yaml

/-- Whether a character ends a line. -/
def isBreak (character : Char) : Bool :=
  character == '\n' || character == '\r' || character == '\x85' || character == '\u2028'
    || character == '\u2029'

/-- Whether a character is a space or a tab. -/
def isSpaceOrTab (character : Char) : Bool := character == ' ' || character == '\t'

/-- Whether a word ends in front of what comes next: a blank, a line break or the end. -/
def endsWord : Option Char → Bool
  | none => true
  | some character => isSpaceOrTab character || isBreak character

/-- Whether a line ends in front of what comes next. -/
def endsLine : Option Char → Bool
  | none => true
  | some character => isBreak character

/-- Whether a tag or an indicator ends in front of what comes next: a space, a line break or the end. -/
def endsField : Option Char → Bool
  | none => true
  | some character => character == ' ' || isBreak character

/-- Whether a character is a letter or digit of the English alphabet, a hyphen or an underscore. -/
def isNameCharacter (character : Char) : Bool :=
  character.isAlphanum || character == '-' || character == '_'

/-- Whether a character may occur in a configuration text. -/
def isAllowed (character : Char) : Bool :=
  let code := character.toNat
  code == 0x09 || code == 0x0a || code == 0x0d || (0x20 ≤ code && code ≤ 0x7e) || code == 0x85
    || (0xa0 ≤ code && code ≤ 0xd7ff) || (0xe000 ≤ code && code ≤ 0xfffd) || 0x10000 ≤ code

/-- A position in a text. -/
structure Cursor where
  rest : List Char
  index : Nat := 0
  line : Nat := 0
  column : Nat := 0
deriving Repr, Inhabited

namespace Cursor

/-- The next character. -/
def peek? (cursor : Cursor) : Option Char := cursor.rest.head?

/-- The character some places further. -/
def peekAt? (cursor : Cursor) (distance : Nat) : Option Char := cursor.rest[distance]?

/-- Whether the next character satisfies a test. -/
def isAt (cursor : Cursor) (test : Char → Bool) : Bool := cursor.peek?.any test

/-- The position after the next character. -/
def next (cursor : Cursor) : Cursor :=
  match cursor.rest with
  | [] => cursor
  | character :: rest =>
      if isBreak character && !(character == '\r' && rest.head? == some '\n') then
        ⟨rest, cursor.index + 1, cursor.line + 1, 0⟩
      else if character == '\ufeff' then { cursor with rest, index := cursor.index + 1 }
      else { cursor with rest, index := cursor.index + 1, column := cursor.column + 1 }

/-- The position some characters further. -/
def forward (cursor : Cursor) : (distance : Nat) → Cursor
  | 0 => cursor
  | distance + 1 => cursor.next.forward distance

/-- Takes the characters that satisfy a test. -/
def span (cursor : Cursor) (test : Char → Bool) : List Char × Cursor :=
  let taken := cursor.rest.takeWhile test
  (taken, cursor.forward taken.length)

/-- Passes over the characters that satisfy a test. -/
def skip (cursor : Cursor) (test : Char → Bool) : Cursor := (cursor.span test).2

/-- Takes a line break, if there is one. The ASCII breaks all become a line feed. -/
def takeBreak? (cursor : Cursor) : Option (Char × Cursor) :=
  match cursor.rest with
  | '\r' :: '\n' :: _ => some ('\n', cursor.forward 2)
  | character :: _ =>
      if character == '\u2028' || character == '\u2029' then some (character, cursor.next)
      else if isBreak character then some ('\n', cursor.next)
      else none
  | [] => none

/-- Passes over the rest of a line. -/
def skipLine (cursor : Cursor) : Cursor := cursor.skip fun character => !isBreak character

/-- Passes over spaces, and over a comment after them. -/
def skipComment (cursor : Cursor) : Cursor :=
  let after := cursor.skip (· == ' ')
  if after.peek? == some '#' then after.skipLine else after

/-- Whether three equal signs that mark the start or the end of a document stand here. -/
def isAtMark (cursor : Cursor) (sign : Char) : Bool :=
  cursor.rest.take 3 == [sign, sign, sign] && endsWord (cursor.peekAt? 3)

/-- Whether a mark of the start or the end of a document stands here. -/
def isAtDocumentMark (cursor : Cursor) : Bool := cursor.isAtMark '-' || cursor.isAtMark '.'

end Cursor

end ResourceServer.Yaml
