import ResourceServer.Yaml.Scalar
import ResourceServer.Yaml.Token.Property

/-!
# Splitting configuration text into tokens

Outside of brackets indentation opens and closes collections. A key is only known to be one when its colon
is met, so the place of every token that could start a key is kept until then; the tokens that announce the
key are put there afterwards. Such a key has to end on its line and within 1024 characters.

Tokens are taken one by one, and the text is read no further than the next token needs. So a fault further on
only shows once everything in front of it has been taken.
-/

namespace ResourceServer.Yaml

/-- A place at which a key may have started: the number of tokens in front of it, and its place in the text. -/
structure PossibleKey where
  position : Nat
  isRequired : Bool
  index : Nat
  line : Nat
  column : Nat
deriving Repr, Inhabited

/-- The state of splitting a text. -/
structure Lexer where
  cursor : Cursor
  /-- A bound on the number of steps that reading the whole text takes. -/
  budget : Nat
  /-- The tokens that have been read and not been taken. -/
  tokens : Array Token := #[]
  /-- How many tokens have been taken. -/
  taken : Nat := 0
  /-- Whether the whole text has been read. -/
  isDone : Bool := false
  /-- How many brackets are open. -/
  flowLevel : Nat := 0
  /-- The column of the innermost open collection, -1 outside of all of them. -/
  indent : Int := -1
  /-- The columns of the collections around it. -/
  indents : List Int := []
  /-- Whether a key may start here. -/
  allowsKey : Bool := true
  /-- The possible keys, by the number of open brackets. -/
  keys : List (Nat × PossibleKey) := []
deriving Repr, Inhabited

namespace Lexer

/-- Whether a bracket is open. -/
def inFlow (lexer : Lexer) : Bool := 0 < lexer.flowLevel

/-- Adds a token. -/
def emit (lexer : Lexer) (token : Token) : Lexer := { lexer with tokens := lexer.tokens.push token }

/-- Adds a token at an earlier place. -/
def emitAt (lexer : Lexer) (position : Nat) (token : Token) : Lexer :=
  let (before, after) := lexer.tokens.toList.splitAt (position - lexer.taken)
  { lexer with tokens := (before ++ token :: after).toArray }

/-- Adds a token and passes over its characters. -/
def emitOver (lexer : Lexer) (token : Token) (length : Nat) : Lexer :=
  { lexer.emit token with cursor := lexer.cursor.forward length }

/-! ## Keys -/

/-- Whether a possible key can no longer become one. -/
def isStale (cursor : Cursor) (key : PossibleKey) : Bool :=
  key.line != cursor.line || key.index + 1024 < cursor.index

/-- Drops the possible keys that can no longer become one. -/
def dropStale (lexer : Lexer) : Except Fault Lexer :=
  if lexer.keys.any fun entry => isStale lexer.cursor entry.2 && entry.2.isRequired then .error .missingColon
  else .ok { lexer with keys := lexer.keys.filter fun entry => !isStale lexer.cursor entry.2 }

/-- Drops the possible key inside the innermost bracket. -/
def dropKey (lexer : Lexer) : Except Fault Lexer :=
  match lexer.keys.lookup lexer.flowLevel with
  | none => .ok lexer
  | some key =>
      if key.isRequired then .error .missingColon
      else .ok { lexer with keys := lexer.keys.filter fun entry => entry.1 != lexer.flowLevel }

/-- Notes that a key may start here. -/
def noteKey (lexer : Lexer) : Except Fault Lexer := do
  if lexer.allowsKey then
    let cursor := lexer.cursor
    let isRequired := !lexer.inFlow && lexer.indent == cursor.column
    let lexer ← lexer.dropKey
    .ok { lexer with
      keys := (lexer.flowLevel,
          ⟨lexer.taken + lexer.tokens.size, isRequired, cursor.index, cursor.line, cursor.column⟩)
        :: lexer.keys }
  else .ok lexer

/-! ## Indentation -/

/-- Closes the collections that are indented deeper than a column. -/
def unwindTo (column : Int) (lexer : Lexer) : List Int → Lexer
  | [] => lexer
  | outer :: rest =>
      if column < lexer.indent then
        unwindTo column { lexer.emit .blockEnd with indent := outer, indents := rest } rest
      else lexer

/-- Closes the collections that are indented deeper than a column, unless a bracket is open. -/
def unwind (lexer : Lexer) (column : Int) : Lexer :=
  if lexer.inFlow then lexer else unwindTo column lexer lexer.indents

/-- Whether a collection at a column is a new one. -/
def opensAt (lexer : Lexer) (column : Nat) : Bool := lexer.indent < column

/-- Makes a column the indentation of the innermost collection. -/
def indentTo (lexer : Lexer) (column : Nat) : Lexer :=
  { lexer with indent := column, indents := lexer.indent :: lexer.indents }

/-- Opens a block collection at the current column if it is a new one. -/
def openBlock (lexer : Lexer) (start : Token) : Lexer :=
  let column := lexer.cursor.column
  if lexer.opensAt column then (lexer.indentTo column).emit start else lexer

/-! ## Tokens -/

/-- Passes over blanks, comments and line breaks. -/
def skipBlanks (lexer : Lexer) : (budget : Nat) → Lexer
  | 0 => lexer
  | budget + 1 =>
      let after := lexer.cursor.skipComment
      match after.takeBreak? with
      | none => { lexer with cursor := after }
      | some (_, below) =>
          skipBlanks { lexer with cursor := below, allowsKey := lexer.allowsKey || !lexer.inFlow } budget

/-- Ends what a document mark, a directive or the end of the text ends. -/
def closeAll (lexer : Lexer) : Except Fault Lexer := do
  let lexer ← (lexer.unwind (-1)).dropKey
  .ok { lexer with allowsKey := false }

/-- A directive. -/
def fetchDirective (lexer : Lexer) : Except Fault Lexer := do
  let lexer ← lexer.closeAll
  let (token, cursor) ← Property.readDirective lexer.cursor
  .ok { lexer.emit token with cursor }

/-- A mark of the start or the end of a document. -/
def fetchMark (lexer : Lexer) (token : Token) : Except Fault Lexer := do
  let lexer ← lexer.closeAll
  .ok (lexer.emitOver token 3)

/-- An opening bracket. -/
def openFlow (lexer : Lexer) (token : Token) : Except Fault Lexer := do
  let lexer ← lexer.noteKey
  .ok { lexer.emitOver token 1 with flowLevel := lexer.flowLevel + 1, allowsKey := true }

/-- A closing bracket. -/
def closeFlow (lexer : Lexer) (token : Token) : Except Fault Lexer := do
  let lexer ← lexer.dropKey
  .ok { lexer.emitOver token 1 with flowLevel := lexer.flowLevel - 1, allowsKey := false }

/-- A comma between brackets. -/
def fetchFlowEntry (lexer : Lexer) : Except Fault Lexer := do
  let lexer ← { lexer with allowsKey := true }.dropKey
  .ok (lexer.emitOver .flowEntry 1)

/-- A hyphen in front of an entry. -/
def fetchBlockEntry (lexer : Lexer) : Except Fault Lexer := do
  if !lexer.inFlow && !lexer.allowsKey then .error .misplaced
  else
    let lexer := if lexer.inFlow then lexer else lexer.openBlock .blockSequenceStart
    let lexer ← { lexer with allowsKey := true }.dropKey
    .ok (lexer.emitOver .blockEntry 1)

/-- A question mark in front of a key. -/
def fetchKey (lexer : Lexer) : Except Fault Lexer := do
  if !lexer.inFlow && !lexer.allowsKey then .error .misplaced
  else
    let lexer := if lexer.inFlow then lexer else lexer.openBlock .blockMappingStart
    let lexer ← { lexer with allowsKey := !lexer.inFlow }.dropKey
    .ok (lexer.emitOver .key 1)

/-- A colon in front of a value: what stands before it becomes a key, if it can be one. -/
def fetchValue (lexer : Lexer) : Except Fault Lexer := do
  match lexer.keys.lookup lexer.flowLevel with
  | some key =>
      let keys := lexer.keys.filter fun entry => entry.1 != lexer.flowLevel
      let lexer := { lexer.emitAt key.position .key with keys, allowsKey := false }
      let lexer :=
        if !lexer.inFlow && lexer.opensAt key.column then
          (lexer.indentTo key.column).emitAt key.position .blockMappingStart
        else lexer
      .ok (lexer.emitOver .value 1)
  | none =>
      if !lexer.inFlow && !lexer.allowsKey then .error .misplaced
      else
        let lexer := if lexer.inFlow then lexer else lexer.openBlock .blockMappingStart
        let lexer ← { lexer with allowsKey := !lexer.inFlow }.dropKey
        .ok (lexer.emitOver .value 1)

/-- An anchor or an alias. -/
def fetchName (lexer : Lexer) (token : String → Token) : Except Fault Lexer := do
  let lexer ← lexer.noteKey
  let (name, cursor) ← Property.readName lexer.cursor.next
  .ok { lexer.emit (token name) with cursor, allowsKey := false }

/-- A tag. -/
def fetchTag (lexer : Lexer) : Except Fault Lexer := do
  let lexer ← lexer.noteKey
  let (tag, cursor) ← Property.readTag lexer.cursor
  .ok { lexer.emit (.tag tag) with cursor, allowsKey := false }

/-- A block scalar. -/
def fetchBlock (lexer : Lexer) (folded : Bool) : Except Fault Lexer := do
  let lexer ← { lexer with allowsKey := true }.dropKey
  let scalar ← Block.read folded lexer.indent lexer.cursor
  .ok { lexer.emit (.scalar (String.ofList scalar.characters) false) with cursor := scalar.cursor }

/-- A quoted scalar. -/
def fetchQuoted (lexer : Lexer) (double : Bool) : Except Fault Lexer := do
  let lexer ← lexer.noteKey
  let scalar ← Quoted.read double lexer.cursor
  .ok { lexer.emit (.scalar (String.ofList scalar.characters) false) with
    cursor := scalar.cursor, allowsKey := false }

/-- A plain scalar. A key may start after the line breaks that follow it. -/
def fetchPlain (lexer : Lexer) : Except Fault Lexer := do
  let lexer ← lexer.noteKey
  let scalar := Plain.read lexer.inFlow (lexer.indent + 1).toNat lexer.cursor
  .ok { lexer.emit (.scalar (String.ofList scalar.characters) true) with
    cursor := scalar.cursor, allowsKey := scalar.brokeLine }

/-- Whether a plain scalar can start with a character in front of another one. -/
def startsPlain (lexer : Lexer) (character : Char) : Bool :=
  let isIndicator := "-?:,[]\x7b\x7d#&*!|>'\"%@\x60".contains character
  (!endsWord (some character) && !isIndicator)
    || (!endsWord (lexer.cursor.peekAt? 1)
        && (character == '-' || (!lexer.inFlow && (character == '?' || character == ':'))))

/-- Takes the next token, whose first character is given. -/
def fetchAt (lexer : Lexer) (character : Char) : Except Fault Lexer :=
  let cursor := lexer.cursor
  let standsAlone := lexer.inFlow || endsWord (cursor.peekAt? 1)
  let atStart := cursor.column == 0
  if character == '%' && atStart then lexer.fetchDirective
  else if atStart && cursor.isAtMark '-' then lexer.fetchMark .documentStart
  else if atStart && cursor.isAtMark '.' then lexer.fetchMark .documentEnd
  else if character == '[' then lexer.openFlow .flowSequenceStart
  else if character == '\x7b' then lexer.openFlow .flowMappingStart
  else if character == ']' then lexer.closeFlow .flowSequenceEnd
  else if character == '\x7d' then lexer.closeFlow .flowMappingEnd
  else if character == ',' then lexer.fetchFlowEntry
  else if character == '-' && endsWord (cursor.peekAt? 1) then lexer.fetchBlockEntry
  else if character == '?' && standsAlone then lexer.fetchKey
  else if character == ':' && standsAlone then lexer.fetchValue
  else if character == '*' then lexer.fetchName .alias
  else if character == '&' then lexer.fetchName .anchor
  else if character == '!' then lexer.fetchTag
  else if character == '|' && !lexer.inFlow then lexer.fetchBlock false
  else if character == '>' && !lexer.inFlow then lexer.fetchBlock true
  else if character == '\'' then lexer.fetchQuoted false
  else if character == '"' then lexer.fetchQuoted true
  else if lexer.startsPlain character then lexer.fetchPlain
  else .error .strayCharacter

/-- Reads at least one more token, or notes that there is none. -/
def fetch (lexer : Lexer) : Except Fault Lexer := do
  let lexer ← (lexer.skipBlanks lexer.budget).dropStale
  let lexer := lexer.unwind lexer.cursor.column
  match lexer.cursor.peek? with
  | some character => lexer.fetchAt character
  | none => do
      let lexer ← (lexer.unwind (-1)).dropKey
      .ok { lexer with isDone := true, keys := [] }

/-- Whether the first token that has not been taken could still turn out to start a key. -/
def awaitsColon (lexer : Lexer) : Bool := lexer.keys.any fun entry => entry.2.position == lexer.taken

/-- Reads until the next token is known. -/
def settle (lexer : Lexer) : (budget : Nat) → Except Fault Lexer
  | 0 => .ok lexer
  | budget + 1 => do
      if lexer.isDone then .ok lexer
      else if lexer.tokens.isEmpty then
        let lexer ← lexer.fetch
        settle lexer budget
      else
        let lexer ← lexer.dropStale
        if lexer.awaitsColon then
          let lexer ← lexer.fetch
          settle lexer budget
        else .ok lexer

/-- The next token, if there is one, and the state in which it is known. -/
def peek (lexer : Lexer) : Except Fault (Option Token × Lexer) := do
  let lexer ← lexer.settle lexer.budget
  .ok (lexer.tokens[0]?, lexer)

/-- Takes the next token. -/
def advance (lexer : Lexer) : Lexer :=
  { lexer with tokens := lexer.tokens.extract 1 lexer.tokens.size, taken := lexer.taken + 1 }

/-- The state in front of a text. A mark of the byte order at its start is passed over. -/
def ofText (text : String) : Except Fault Lexer :=
  let characters := text.toList
  if !characters.all isAllowed then .error .unprintable
  else
    let start : Cursor := { rest := characters }
    let cursor := if start.peek? == some '\ufeff' then start.next else start
    .ok { cursor, budget := characters.length + 2 }

end Lexer

end ResourceServer.Yaml
