import ResourceServer.Text.Digit
import ResourceServer.Yaml.Cursor
import ResourceServer.Yaml.Token

/-!
# Anchors, tags and directives

What may stand in front of a node or of a document.
-/

namespace ResourceServer.Yaml

namespace Property

/-- The name of an anchor or alias, whose sign has been passed. -/
def readName (cursor : Cursor) : Except Fault (String × Cursor) :=
  let (name, after) := cursor.span isNameCharacter
  let ends := endsWord after.peek? || after.isAt ("?:,]\x7d%@\x60".contains ·)
  if name.isEmpty || !ends then .error .anchorName else .ok (String.ofList name, after)

/-- The bytes of escapes by code, as many as follow each other. -/
def escapedBytes (cursor : Cursor) (taken : List UInt8) : (budget : Nat) → Except Fault (List UInt8 × Cursor)
  | 0 => .ok (taken, cursor)
  | budget + 1 =>
      match cursor.rest with
      | '%' :: first :: second :: _ =>
          match Text.hexDigit? first, Text.hexDigit? second with
          | some high, some low =>
              escapedBytes (cursor.forward 3) (taken ++ [UInt8.ofNat (high * 16 + low)]) budget
          | _, _ => .error .tagForm
      | '%' :: _ => .error .tagForm
      | _ => .ok (taken, cursor)

/-- Whether a character may stand in the text of a tag. -/
def isTagCharacter (character : Char) : Bool :=
  character.isAlphanum || "-;/?:@&=+$,_.!~*'()[]".contains character

/-- Reads the text of a tag. -/
def readTagText (cursor : Cursor) (gathered : String) : (budget : Nat) → Except Fault (String × Cursor)
  | 0 => .error .tagForm
  | budget + 1 =>
      let (characters, after) := cursor.span isTagCharacter
      let gathered := gathered ++ String.ofList characters
      if after.peek? == some '%' then do
        let (bytes, below) ← escapedBytes after [] (after.rest.length + 1)
        match String.fromUTF8? ⟨bytes.toArray⟩ with
        | some text => readTagText below (gathered ++ text) budget
        | none => .error .tagForm
      else if gathered.isEmpty then .error .tagForm
      else .ok (gathered, after)

/-- Reads the text of a tag that must not be empty. -/
def tagText (cursor : Cursor) : Except Fault (String × Cursor) :=
  readTagText cursor "" (cursor.rest.length + 1)

/-- Reads a handle: an exclamation mark, or two with a name between them. -/
def readHandle (cursor : Cursor) : Except Fault (String × Cursor) :=
  if cursor.peek? != some '!' then .error .tagForm
  else if cursor.peekAt? 1 == some ' ' then .ok ("!", cursor.next)
  else
    let (name, after) := cursor.next.span isNameCharacter
    if after.peek? == some '!' then .ok ("!" ++ String.ofList name ++ "!", after.next)
    else .error .tagForm

/-- Whether an exclamation mark follows in the same word. -/
def hasSecondMark (cursor : Cursor) : Bool :=
  (cursor.rest.takeWhile fun character => !endsField (some character)).contains '!'

/-- Reads a tag, from its exclamation mark on. -/
def readTag (cursor : Cursor) : Except Fault (WrittenTag × Cursor) := do
  let (tag, after) ←
    if cursor.peekAt? 1 == some '<' then do
      let (suffix, after) ← tagText (cursor.forward 2)
      if after.peek? == some '>' then .ok ((⟨none, suffix⟩ : WrittenTag), after.next)
      else .error .tagForm
    else if endsWord (cursor.peekAt? 1) then .ok (⟨none, "!"⟩, cursor.next)
    else if hasSecondMark cursor.next then do
      let (handle, after) ← readHandle cursor
      let (suffix, after) ← tagText after
      .ok (⟨some handle, suffix⟩, after)
    else do
      let (suffix, after) ← tagText cursor.next
      .ok (⟨some "!", suffix⟩, after)
  if endsField after.peek? then .ok (tag, after) else .error .tagForm

/-- Reads a whole number. -/
def readNumber (cursor : Cursor) : Except Fault (Nat × Cursor) :=
  let (digits, after) := cursor.span Char.isDigit
  if digits.isEmpty then .error .directiveForm
  else .ok (Text.numberOf digits, after)

/-- Reads the version that a directive says. -/
def readVersion (cursor : Cursor) : Except Fault (Token × Cursor) := do
  let (major, after) ← readNumber (cursor.skip (· == ' '))
  if after.peek? != some '.' then .error .directiveForm
  else
    let (_, after) ← readNumber after.next
    if endsField after.peek? then .ok (.version major, after) else .error .directiveForm

/-- Reads the handle that a directive declares. -/
def readDeclaration (cursor : Cursor) : Except Fault (Token × Cursor) := do
  let (name, after) ← readHandle (cursor.skip (· == ' '))
  if after.peek? != some ' ' then .error .directiveForm
  else
    let (meaning, after) ← tagText (after.skip (· == ' '))
    if endsField after.peek? then .ok (.handle name meaning, after) else .error .directiveForm

/-- Reads a directive, from its percent sign on. -/
def readDirective (cursor : Cursor) : Except Fault (Token × Cursor) := do
  let (name, after) := cursor.next.span isNameCharacter
  if name.isEmpty || !endsField after.peek? then .error .directiveForm
  else
    let (token, after) ←
      match String.ofList name with
      | "YAML" => readVersion after
      | "TAG" => readDeclaration after
      | _ => .ok (Token.directive, after.skipLine)
    let below := after.skipComment
    if !endsLine below.peek? then .error .directiveForm
    else
      match below.takeBreak? with
      | some (_, below) => .ok (token, below)
      | none => .ok (token, below)

end Property

end ResourceServer.Yaml
