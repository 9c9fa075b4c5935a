import ResourceServer.Text.Digit

/-!
# Patterns of paths

A pattern is a path in which named parameters may stand for text. It is written with the parameters in braces,
each with a name and possibly the word for its kind, which decides about the text it stands for. The text of a
parameter is as long as the rest of the pattern allows it to be. One line feed may end a path unseen.
-/

namespace ResourceServer.Http

/-- What a parameter may stand for. -/
inductive ParameterKind
  /-- Text without slashes. -/
  | segment
  /-- Any text on one line. -/
  | path
  /-- A whole number without a sign. -/
  | whole
  /-- A number with or without a fraction. -/
  | fraction
  /-- The 32 hexadecimal digits of an identifier, in groups that hyphens may part. -/
  | identifier
deriving DecidableEq, Repr

namespace ParameterKind

/-- The kind that a word names. -/
def ofWord? : String → Option ParameterKind
  | "str" => some .segment
  | "path" => some .path
  | "int" => some .whole
  | "float" => some .fraction
  | "uuid" => some .identifier
  | _ => none

/-- Whether a character can occur in the text of a parameter. -/
def allows : ParameterKind → Char → Bool
  | .segment, character => character != '/'
  | .path, character => character != '\n'
  | .whole, character => character.isDigit
  | .fraction, character => character.isDigit || character == '.'
  | .identifier, character => (Text.hexDigit? character).isSome || character == '-'

/-- Whether a text consists of groups of characters of the given lengths, with or without hyphens between
them. -/
def isGrouped : List Nat → List Char → Bool
  | [], characters => characters.isEmpty
  | length :: lengths, characters =>
      let group := characters.take length
      let rest := characters.drop length
      group.length == length && !group.contains '-'
        && isGrouped lengths (if !lengths.isEmpty && rest.head? == some '-' then rest.drop 1 else rest)

/-- Whether a text of allowed characters is one of a parameter. -/
def accepts : ParameterKind → List Char → Bool
  | .segment, text => !text.isEmpty
  | .path, _ => true
  | .whole, text => !text.isEmpty
  | .fraction, text =>
      let digits := text.takeWhile Char.isDigit
      let decimals := (text.dropWhile Char.isDigit).drop 1
      !digits.isEmpty && (digits.length == text.length || (!decimals.isEmpty && decimals.all Char.isDigit))
  | .identifier, text => isGrouped [8, 4, 4, 4, 12] text

end ParameterKind

/-- A part of a pattern. -/
inductive PathPart
  | literal (text : String)
  | parameter (name : String) (kind : ParameterKind := .segment)
deriving DecidableEq, Repr

/-- The name of a parameter. -/
def PathPart.name? : PathPart → Option String
  | .literal _ => none
  | .parameter name _ => some name

/-- Why a pattern cannot be used. -/
inductive PatternFault
  /-- A word that names no kind of parameter. -/
  | unknownKind (word : String)
  /-- A name that two parameters have. -/
  | repeatedName (name : String)
deriving DecidableEq, Repr

/-- The names and texts of the parameters of a path, in order. -/
abbrev Capture := List (String × String)

/-- The text of a parameter. -/
def Capture.text (capture : Capture) (name : String) : String := (capture.lookup name).getD ""

/-- A pattern. -/
abbrev PathPattern := List PathPart

/-! ## Matching -/

/-- Tries the ends of a run of allowed characters, the last one first: what is made of the run, in which the
characters come in reverse, and of the rest. -/
def lastEnd? {α : Type} (allows : Char → Bool) (attempt : List Char → List Char → Option α) :
    (run : List Char) → (rest : List Char) → Option α
  | run, [] => attempt run []
  | run, character :: rest =>
      let further := if allows character then lastEnd? allows attempt (character :: run) rest else none
      match further with
      | some found => some found
      | none => attempt run (character :: rest)

namespace PathPattern

/-- The texts of the parameters in a path that the pattern describes. -/
def capture? : PathPattern → List Char → Option Capture
  | [], path => if path.isEmpty || path == ['\n'] then some [] else none
  | .literal text :: parts, path =>
      if text.toList.isPrefixOf path then capture? parts (path.drop text.length) else none
  | .parameter name kind :: parts, path =>
      lastEnd? kind.allows (fun run rest =>
        match capture? parts rest with
        | some capture =>
            let text := run.reverse
            if kind.accepts text then some ((name, String.ofList text) :: capture) else none
        | none => none) [] path

/-- The first name that a parameter further on has too. -/
def repeatedName? : PathPattern → Option String
  | [] => none
  | part :: parts =>
      match part.name? with
      | some name => if parts.any (·.name? == some name) then some name else repeatedName? parts
      | none => repeatedName? parts

/-- The pattern, if it can be used. -/
def checked (pattern : PathPattern) : Except PatternFault PathPattern :=
  match pattern.repeatedName? with
  | some name => .error (.repeatedName name)
  | none => .ok pattern

/-! ## Reading -/

/-- Whether a character can occur in a name. -/
def isNameCharacter (character : Char) : Bool := character.isAlphanum || character == '_'

/-- Reads a name: it does not start with a digit. -/
def readName? (characters : List Char) : Option (String × List Char) :=
  let name := characters.takeWhile isNameCharacter
  match name with
  | [] => none
  | first :: _ =>
      if first.isDigit then none else some (String.ofList name, characters.dropWhile isNameCharacter)

/-- Reads a parameter behind its opening brace: its name, the word for its kind and the text after it. -/
def readParameter? (characters : List Char) : Option (String × String × List Char) :=
  match readName? characters with
  | some (name, '\x7d' :: rest) => some (name, "str", rest)
  | some (name, ':' :: rest) =>
      match readName? rest with
      | some (word, '\x7d' :: rest) => some (name, word, rest)
      | _ => none
  | _ => none

/-- Reads parts, given the characters in front that belong to none yet, in reverse. A brace that opens no
parameter stands for itself. -/
def readParts : (budget : Nat) → (pending : List Char) → List Char → Except PatternFault PathPattern
  | budget + 1, pending, '\x7b' :: rest =>
      match readParameter? rest with
      | none => readParts budget ('\x7b' :: pending) rest
      | some (name, word, rest) =>
          match ParameterKind.ofWord? word with
          | none => .error (.unknownKind word)
          | some kind => do
              let parts ← readParts budget [] rest
              .ok (.literal (String.ofList pending.reverse) :: .parameter name kind :: parts)
  | budget + 1, pending, character :: rest => readParts budget (character :: pending) rest
  | _, pending, _ => .ok [.literal (String.ofList pending.reverse)]

/-- Reads a pattern. -/
def ofText (text : String) : Except PatternFault PathPattern :=
  readParts text.length [] text.toList

end PathPattern

end ResourceServer.Http
