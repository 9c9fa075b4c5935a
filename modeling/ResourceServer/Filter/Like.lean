import ResourceServer.Text.Casing
import ResourceServer.Value.Printer

/-!
# Pattern matching

In a pattern a percent sign stands for any run of characters, an underscore for any single one, and
every other character for itself or, when case is ignored, for any letter alike. A pattern covers the
whole text; one line break at the very end of the text may be left over.
-/

namespace ResourceServer.Filter

/-- Whether a pattern character accepts a text character. -/
def acceptsCharacter (caseSensitive : Bool) (expected actual : Char) : Bool :=
  if caseSensitive then expected == actual else Text.alike expected actual

/-- The texts that remain after each possible run of characters at the front, the longest first. -/
def remainders : List Char → List (List Char)
  | [] => [[]]
  | character :: rest => (character :: rest) :: remainders rest

/-- What remains of a text after one character that a pattern character accepts. -/
def afterOne? (accepts : Char → Char → Bool) (expected : Char) : List Char → Option (List Char)
  | [] => none
  | actual :: rest => if expected = '_' ∨ accepts expected actual then some rest else none

/-- The texts that may remain once a pattern is used up, when `accepts` says which characters a pattern
character stands for. The alternatives are endings of one text and stand in order of length, so after a
percent sign the first of them covers all. -/
def remainingAfter (accepts : Char → Char → Bool) :
    (pattern : List Char) → List (List Char) → List (List Char)
  | [], remaining => remaining
  | expected :: pattern, remaining =>
      if expected = '%' then
        match remaining.head? with
        | some text => remainingAfter accepts pattern (remainders text)
        | none => []
      else
        remainingAfter accepts pattern (remaining.filterMap (afterOne? accepts expected))

/-- Whether nothing remains of a text, or only a line break. -/
def isUsedUp (remaining : List Char) : Bool := remaining.isEmpty || remaining == ['\n']

/-- Whether a pattern covers a text. -/
def coversText (caseSensitive : Bool) (pattern text : List Char) : Bool :=
  (remainingAfter (acceptsCharacter caseSensitive) pattern [text]).any isUsedUp

/-- Whether the text of a value matches a pattern. Null matches nothing. -/
def likeMatches (value : Value) (pattern : String) (caseSensitive : Bool := true) : Bool :=
  !value.isNull && coversText caseSensitive pattern.toList value.plain.toList

end ResourceServer.Filter
