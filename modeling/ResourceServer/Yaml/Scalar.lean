import ResourceServer.Text.Digit
import ResourceServer.Yaml.Cursor

/-!
# Scalars in configuration text

A plain scalar runs until something that could not belong to it; a quoted one until its quote; a block
scalar as long as its lines are indented. A single line break inside a plain or quoted scalar is read as a
space, and of several the first is dropped.
-/

namespace ResourceServer.Yaml

/-- A scalar that has been read, and where it ends. -/
structure ScalarText where
  characters : List Char
  cursor : Cursor
  /-- Whether line breaks stand between the scalar and the cursor. -/
  brokeLine : Bool := false
deriving Repr, Inhabited

/-- The characters that stand for a line break and further ones after it. -/
def foldBreaks (first : Char) (others : List Char) : List Char :=
  if first != '\n' then first :: others
  else if others.isEmpty then [' ']
  else others

/-! ## Plain scalars -/

namespace Plain

/-- Whether a plain scalar inside (`flow`) or outside of brackets ends in front of a character and the one
after it. -/
def ends (flow : Bool) (character : Char) (following : Option Char) : Bool :=
  endsWord (some character)
    || (character == ':' && (endsWord following || (flow && following.any (",[]\x7b\x7d".contains ·))))
    || (flow && ",?[]\x7b\x7d".contains character)

/-- The characters up to where a plain scalar has to pause. -/
def chunk (flow : Bool) : List Char → List Char
  | [] => []
  | character :: rest => if ends flow character rest.head? then [] else character :: chunk flow rest

/-- Takes the line breaks and spaces between two lines of a plain scalar; none when a document mark
follows. -/
def breaks (cursor : Cursor) (taken : List Char) : (budget : Nat) → Option (List Char × Cursor)
  | 0 => some (taken, cursor)
  | budget + 1 =>
      if cursor.peek? == some ' ' then breaks cursor.next taken budget
      else
        match cursor.takeBreak? with
        | none => some (taken, cursor)
        | some (character, after) =>
            if after.isAtDocumentMark then none else breaks after (taken ++ [character]) budget

/-- What stands between two chunks of a plain scalar. Nothing (`none`) ends the scalar. -/
def spaces (cursor : Cursor) : Option (List Char) × Cursor × Bool :=
  let (blanks, after) := cursor.span (· == ' ')
  match after.takeBreak? with
  | none => (if blanks.isEmpty then none else some blanks, after, false)
  | some (character, below) =>
      if below.isAtDocumentMark then (none, below, true)
      else
        match breaks below [] below.rest.length with
        | none => (none, below, true)
        | some (others, cursor) => (some (foldBreaks character others), cursor, true)

/-- Reads a plain scalar that has to be indented by at least `indent` columns outside of brackets. -/
def readFrom (flow : Bool) (indent : Nat) (text : ScalarText) (between : List Char) :
    (budget : Nat) → ScalarText
  | 0 => text
  | budget + 1 =>
      let cursor := text.cursor
      let characters := if cursor.peek? == some '#' then [] else chunk flow cursor.rest
      if characters.isEmpty then text
      else
        let gathered := text.characters ++ between ++ characters
        let (between, cursor, brokeLine) := spaces (cursor.forward characters.length)
        let text := ⟨gathered, cursor, brokeLine⟩
        match between with
        | none => text
        | some between =>
            if cursor.peek? == some '#' || (!flow && cursor.column < indent) then text
            else readFrom flow indent text between budget

/-- Reads a plain scalar. -/
def read (flow : Bool) (indent : Nat) (cursor : Cursor) : ScalarText :=
  readFrom flow indent ⟨[], cursor, false⟩ [] (cursor.rest.length + 1)

end Plain

/-! ## Quoted scalars -/

namespace Quoted

/-- The characters that an escape of one character stands for. -/
def escapes : List (Char × Char) :=
  [('0', '\x00'), ('a', '\x07'), ('b', '\x08'), ('t', '\t'), ('\t', '\t'), ('n', '\n'), ('v', '\x0b'),
    ('f', '\x0c'), ('r', '\r'), ('e', '\x1b'), (' ', ' '), ('"', '"'), ('\\', '\\'), ('/', '/'),
    ('N', '\x85'), ('_', '\xa0'), ('L', '\u2028'), ('P', '\u2029')]

/-- The number of digits of an escape by code. -/
def escapeWidths : List (Char × Nat) := [('x', 2), ('u', 4), ('U', 8)]

/-- The number that hexadecimal digits spell. -/
def codeOf? (digits : List Char) : Option Nat := do
  let values ← digits.mapM Text.hexDigit?
  some (values.foldl (fun total digit => total * 16 + digit) 0)

/-- The greatest code for which a character can be asked. -/
def greatestCode : Nat := 0x7fffffff

/-- The character of a code; a half of a surrogate pair is replaced. -/
def characterOf (code : Nat) : Except Fault Char :=
  if greatestCode < code then .error .codeTooGreat
  else if 0x110000 ≤ code then .error .codeBeyondCharacters
  else if code.isValidChar then .ok (Char.ofNat code)
  else .ok '\ufffd'

/-- Takes the lines after a line break, up to something else than blanks. -/
def breaks (cursor : Cursor) (taken : List Char) : (budget : Nat) → Except Fault (List Char × Cursor)
  | 0 => .ok (taken, cursor)
  | budget + 1 =>
      if cursor.isAtDocumentMark then .error .unclosedQuote
      else
        let cursor := cursor.skip isSpaceOrTab
        match cursor.takeBreak? with
        | none => .ok (taken, cursor)
        | some (character, after) => breaks after (taken ++ [character]) budget

/-- Reads the code of an escape by code, whose letter is next. -/
def code? (cursor : Cursor) : Option (Nat × Cursor) := do
  let letter ← cursor.peek?
  let width ← escapeWidths.lookup letter
  let digits := cursor.next.rest.take width
  let code ← codeOf? digits
  if digits.length = width then some (code, cursor.next.forward width) else none

/-- The code of a character whose first half has been read; the second half follows in an escape of its own. -/
def joinHalves (code : Nat) (cursor : Cursor) : Nat × Cursor :=
  if 0xd800 ≤ code ∧ code < 0xdc00 ∧ cursor.peek? = some '\\' then
    match code? cursor.next with
    | some (second, after) =>
        if 0xdc00 ≤ second ∧ second < 0xe000 then
          (0x10000 + (code - 0xd800) * 0x400 + (second - 0xdc00), after)
        else (code, cursor)
    | none => (code, cursor)
  else (code, cursor)

/-- Reads an escape whose backslash has been passed. -/
def escape (cursor : Cursor) : Except Fault (List Char × Cursor) :=
  match cursor.peek? with
  | none => .error .unknownEscape
  | some character =>
      match escapes.lookup character, escapeWidths.lookup character, cursor.takeBreak? with
      | some replacement, _, _ => .ok ([replacement], cursor.next)
      | none, some _, _ =>
          match code? cursor with
          | some (code, after) =>
              let (code, after) := joinHalves code after
              (characterOf code).map fun replacement => ([replacement], after)
          | none => .error .unknownEscape
      | none, none, some (_, after) => breaks after [] (after.rest.length + 1)
      | none, none, none => .error .unknownEscape

/-- Reads blanks and line breaks inside of quotes. -/
def spaces (cursor : Cursor) : Except Fault (List Char × Cursor) :=
  let (blanks, after) := cursor.span isSpaceOrTab
  if after.rest.isEmpty then .error .unclosedQuote
  else
    match after.takeBreak? with
    | none => .ok (blanks, after)
    | some (character, below) => do
        let (others, cursor) ← breaks below [] (below.rest.length + 1)
        .ok (foldBreaks character others, cursor)

/-- Reads the rest of a quoted scalar, up to its quote. -/
def readFrom (double : Bool) (cursor : Cursor) (gathered : List Char) :
    (budget : Nat) → Except Fault ScalarText
  | 0 => .error .unclosedQuote
  | budget + 1 =>
      match cursor.rest with
      | [] => .error .unclosedQuote
      | '\\' :: _ =>
          if double then do
            let (characters, after) ← escape cursor.next
            readFrom double after (gathered ++ characters) budget
          else readFrom double cursor.next (gathered ++ ['\\']) budget
      | '"' :: _ =>
          if double then .ok ⟨gathered, cursor.next, false⟩
          else readFrom double cursor.next (gathered ++ ['"']) budget
      | '\'' :: '\'' :: _ =>
          if double then readFrom double cursor.next (gathered ++ ['\'']) budget
          else readFrom double (cursor.forward 2) (gathered ++ ['\'']) budget
      | '\'' :: _ =>
          if double then readFrom double cursor.next (gathered ++ ['\'']) budget
          else .ok ⟨gathered, cursor.next, false⟩
      | character :: _ =>
          if endsWord (some character) then do
            let (characters, after) ← spaces cursor
            readFrom double after (gathered ++ characters) budget
          else readFrom double cursor.next (gathered ++ [character]) budget

/-- Reads a quoted scalar, from its first quote on. -/
def read (double : Bool) (cursor : Cursor) : Except Fault ScalarText :=
  readFrom double cursor.next [] (cursor.rest.length + 1)

end Quoted

/-! ## Block scalars -/

namespace Block

/-- What becomes of the line breaks at the end of a block scalar. -/
inductive Chomping
  | strip
  | clip
  | keep
deriving DecidableEq, Repr

/-- The indicators of a block scalar. -/
structure Header where
  chomping : Chomping := .clip
  increment : Option Nat := none
deriving Repr

/-- The value of a decimal digit. -/
def digit? (character : Char) : Option Nat :=
  if character.isDigit then some (character.toNat - '0'.toNat) else none

/-- How a sign says what becomes of line breaks. -/
def chomping? : Option Char → Option Chomping
  | some '+' => some .keep
  | some '-' => some .strip
  | _ => none

/-- Reads the indicators of a block scalar, a sign and a digit in any order, and the rest of their line. -/
def header (cursor : Cursor) : Except Fault (Header × Cursor) :=
  let first := cursor.peek?
  let second := cursor.peekAt? 1
  let (header, after) : Header × Cursor :=
    match chomping? first, first.bind digit? with
    | some chomping, _ =>
        match second.bind digit? with
        | some digit => (⟨chomping, some digit⟩, cursor.forward 2)
        | none => (⟨chomping, none⟩, cursor.next)
    | none, some digit =>
        match chomping? second with
        | some chomping => (⟨chomping, some digit⟩, cursor.forward 2)
        | none => (⟨.clip, some digit⟩, cursor.next)
    | none, none => ({}, cursor)
  let below := after.skipComment
  if header.increment == some 0 || !endsField after.peek? || !endsLine below.peek? then
    .error .blockHeader
  else
    match below.takeBreak? with
    | some (_, below) => .ok (header, below)
    | none => .ok (header, below)

/-- Takes blank lines at the start of a block scalar; yields the greatest indentation among them. -/
def leading (cursor : Cursor) (taken : List Char) (deepest : Nat) :
    (budget : Nat) → List Char × Nat × Cursor
  | 0 => (taken, deepest, cursor)
  | budget + 1 =>
      if cursor.peek? == some ' ' then leading cursor.next taken (max deepest cursor.next.column) budget
      else
        match cursor.takeBreak? with
        | none => (taken, deepest, cursor)
        | some (character, after) => leading after (taken ++ [character]) deepest budget

/-- Passes over at most the indentation of a line. -/
def indentation (indent : Nat) (cursor : Cursor) : Cursor :=
  let spaces := (cursor.rest.takeWhile (· == ' ')).length
  cursor.forward (min spaces (indent - cursor.column))

/-- Takes line breaks, each followed by the indentation of the next line. -/
def breaks (indent : Nat) (cursor : Cursor) (taken : List Char) : (budget : Nat) → List Char × Cursor
  | 0 => (taken, cursor)
  | budget + 1 =>
      let cursor := indentation indent cursor
      match cursor.takeBreak? with
      | none => (taken, cursor)
      | some (character, after) => breaks indent after (taken ++ [character]) budget

/-- The state between two lines of a block scalar: what has been read, the line break after it and the
further ones. -/
structure Lines where
  gathered : List Char
  lineBreak : List Char
  others : List Char
  cursor : Cursor
deriving Repr

/-- Whether a line starts with something else than a blank. -/
def startsSolid (cursor : Cursor) : Bool := !(cursor.isAt isSpaceOrTab)

/-- Reads the lines of a block scalar. -/
def lines (folded : Bool) (indent : Nat) (state : Lines) : (budget : Nat) → Lines
  | 0 => state
  | budget + 1 =>
      let cursor := state.cursor
      if cursor.column != indent || cursor.rest.isEmpty then state
      else
        let (characters, ending) := cursor.span fun character => !isBreak character
        let gathered := state.gathered ++ state.others ++ characters
        let (lineBreak, below) := match ending.takeBreak? with
          | some (character, below) => ([character], below)
          | none => ([], ending)
        let (others, following) := breaks indent below [] (below.rest.length + 1)
        let read : Lines := ⟨gathered, lineBreak, others, following⟩
        if following.column == indent && !following.rest.isEmpty then
          let joint :=
            if folded && lineBreak == ['\n'] && startsSolid cursor && startsSolid following then
              (if others.isEmpty then [' '] else [])
            else lineBreak
          lines folded indent { read with gathered := gathered ++ joint } budget
        else read

/-- Reads a block scalar below a collection that is indented by `indent` columns. -/
def read (folded : Bool) (indent : Int) (cursor : Cursor) : Except Fault ScalarText := do
  let (header, below) ← header cursor.next
  let least := (max (indent + 1) 1).toNat
  let budget := below.rest.length + 1
  let (others, depth, start) :=
    match header.increment with
    | none =>
        let (others, deepest, start) := leading below [] 0 budget
        (others, max least deepest, start)
    | some increment =>
        let depth := least + increment - 1
        let (others, start) := breaks depth below [] budget
        (others, depth, start)
  let result := lines folded depth ⟨[], [], others, start⟩ budget
  let ending := match header.chomping with
    | .strip => []
    | .clip => result.lineBreak
    | .keep => result.lineBreak ++ result.others
  .ok ⟨result.gathered ++ ending, result.cursor, true⟩

end Block

end ResourceServer.Yaml
