import ResourceServer.Text.Digit

/-!
# Tags of nodes

A tag says what a node means. The tag of a plain scalar follows from its text: words for nothing, for yes and
for no, whole numbers in four bases and in sixties, decimals and times have forms of their own, and
everything else is text. A form may be followed by a line feed, which only a scalar in quotes or in a block can
have at its end.
-/

namespace ResourceServer.Yaml

/-- What a node means. -/
inductive Tag
  | null
  | boolean
  | integer
  | real
  | text
  | timestamp
  | binary
  /-- The key under which another mapping is merged. -/
  | merge
  /-- The key under which a mapping keeps its own value. -/
  | equals
  /-- A single sign of the language itself. -/
  | indicator
  | sequence
  | mapping
  | orderedMapping
  | pairs
  | set
  | other (name : String)
deriving DecidableEq, Repr, Inhabited

namespace Tag

/-- What the names of the standard tags start with. -/
def standard : String := "tag:yaml.org,2002:"

/-- The standard tags by name. -/
def names : List (String × Tag) :=
  [("null", .null), ("bool", .boolean), ("int", .integer), ("float", .real), ("str", .text),
    ("timestamp", .timestamp), ("binary", .binary), ("merge", .merge), ("value", .equals),
    ("seq", .sequence), ("map", .mapping), ("omap", .orderedMapping), ("pairs", .pairs), ("set", .set)]

/-- The tag of a name. -/
def ofName (name : String) : Tag :=
  match names.find? fun entry => standard ++ entry.1 == name with
  | some (_, tag) => tag
  | none => .other name

/-! ## Forms of plain scalars -/

/-- The words for nothing. -/
def nullWords : List String := ["", "~", "null", "Null", "NULL"]

/-- The words for yes and for no. -/
def booleanWords : List (String × Bool) :=
  [("yes", true), ("true", true), ("on", true), ("no", false), ("false", false), ("off", false)]

/-- A word with a capital at its start. -/
def capitalized (word : String) : String :=
  match word.toList with
  | [] => ""
  | first :: rest => String.ofList (first.toUpper :: rest)

/-- Whether a text is a word in small letters, with a capital or in capitals. -/
def isWord (word text : String) : Bool :=
  text == word || text == capitalized word || text == word.toUpper

/-- Whether a character is a decimal digit or an underscore. -/
def isSpaced (character : Char) : Bool := character.isDigit || character == '_'

/-- Whether a text is not empty and all of its characters pass a test. -/
def isRun (test : Char → Bool) (characters : List Char) : Bool :=
  !characters.isEmpty && characters.all test

/-- A text without its sign. -/
def unsigned : List Char → List Char
  | '-' :: rest => rest
  | '+' :: rest => rest
  | characters => characters

/-- Splits a text at every colon. -/
def atColons : List Char → List (List Char)
  | [] => [[]]
  | character :: rest =>
      match atColons rest with
      | [] => [[character]]
      | part :: parts => if character = ':' then [] :: part :: parts else (character :: part) :: parts

/-- Whether a text is a digit in base sixty: one decimal digit, or two of which the first is below six. -/
def isSixtieth : List Char → Bool
  | [only] => only.isDigit
  | [first, second] => '0' ≤ first && first ≤ '5' && second.isDigit
  | _ => false

/-- Whether a text is a number in base sixty of at least two digits, whose first one may be any number that
passes a test. -/
def isSexagesimal (test : List Char → Bool) (characters : List Char) : Bool :=
  match atColons characters with
  | first :: second :: rest => test first && (second :: rest).all isSixtieth
  | _ => false

/-- Whether a text starts with a digit other than zero, and has only digits and underscores. -/
def isCounting : List Char → Bool
  | first :: rest => first.isDigit && first != '0' && rest.all isSpaced
  | [] => false

/-- Whether a text is a whole number. -/
def isInteger (characters : List Char) : Bool :=
  match unsigned characters with
  | ['0'] => true
  | '0' :: 'b' :: digits => isRun (fun digit => digit == '0' || digit == '1' || digit == '_') digits
  | '0' :: 'x' :: digits => isRun (fun digit => (Text.hexDigit? digit).isSome || digit == '_') digits
  | '0' :: digits => isRun (fun digit => ('0' ≤ digit && digit ≤ '7') || digit == '_') digits
  | digits => isCounting digits || isSexagesimal isCounting digits

/-- Whether a text is nothing, or a power of ten with a sign. -/
def isExponent : List Char → Bool
  | [] => true
  | mark :: sign :: digits =>
      (mark == 'e' || mark == 'E') && (sign == '-' || sign == '+') && isRun Char.isDigit digits
  | _ => false

/-- Whether a text starts with a digit and has only digits and underscores. -/
def isDigits : List Char → Bool
  | first :: rest => first.isDigit && rest.all isSpaced
  | [] => false

/-- Whether a text is a decimal. -/
def isReal (characters : List Char) : Bool :=
  let plain := unsigned characters
  let whole := plain.takeWhile (· != '.')
  match plain.dropWhile (· != '.') with
  | '.' :: fraction =>
      let rest := fraction.dropWhile isSpaced
      if whole.isEmpty then
        (isRun isSpaced (fraction.takeWhile isSpaced) && fraction.head?.any Char.isDigit
          && isExponent rest && characters.head? == some '.')
        || isWord "inf" (String.ofList fraction)
        || (characters.head? == some '.' && ["nan", "NaN", "NAN"].contains (String.ofList fraction))
      else
        (isDigits whole && isExponent rest) || (isSexagesimal isDigits whole && rest.isEmpty)
  | _ => false

/-- Takes between one and two digits. -/
def oneOrTwoDigits? : List Char → Option (List Char × List Char)
  | first :: second :: rest =>
      if first.isDigit then
        if second.isDigit then some ([first, second], rest) else some ([first], second :: rest)
      else none
  | [first] => if first.isDigit then some ([first], []) else none
  | [] => none

/-- Takes exactly some digits. -/
def exactDigits? (count : Nat) (characters : List Char) : Option (List Char × List Char) :=
  let digits := characters.take count
  if digits.length = count ∧ digits.all Char.isDigit then some (digits, characters.drop count) else none

/-- Takes a character. -/
def exactly? (expected : Char) : List Char → Option (List Char)
  | [] => none
  | actual :: rest => if actual = expected then some rest else none

/-- The parts of a time. -/
structure Timestamp where
  year : Nat
  month : Nat
  day : Nat
  /-- The hour, unless the time is a date alone. -/
  hour : Option Nat := none
  minute : Nat := 0
  second : Nat := 0
  /-- The digits of the fraction of a second. -/
  fraction : List Char := []
  /-- Seconds east of Greenwich. -/
  offset : Option Int := none
deriving Repr, Inhabited

/-- Reads an offset: nothing, `Z`, or a sign with hours and possibly minutes. -/
def readOffset? (characters : List Char) : Option (Option Int) :=
  match characters.dropWhile fun character => character == ' ' || character == '\t' with
  | [] => if characters.isEmpty then some none else none
  | ['Z'] => some (some 0)
  | sign :: rest => do
      let factor : Int ← if sign = '+' then some 1 else if sign = '-' then some (-1) else none
      let (hours, rest) ← oneOrTwoDigits? rest
      let minutes ←
        match rest with
        | [] => some []
        | rest => do
            let rest ← exactly? ':' rest
            let (minutes, rest) ← exactDigits? 2 rest
            if rest.isEmpty then some minutes else none
      some (some (factor * (Text.numberOf hours * 3600 + Text.numberOf minutes * 60 : Nat)))

/-- Reads the time of day that follows a date: after the letter T or after blanks. -/
def readClock? (date : Timestamp) (characters : List Char) : Option Timestamp := do
  let start ←
    match characters with
    | [] => none
    | mark :: rest =>
        if mark = 'T' ∨ mark = 't' then some rest
        else if mark = ' ' ∨ mark = '\t' then
          some (rest.dropWhile fun character => character == ' ' || character == '\t')
        else none
  let (hour, rest) ← oneOrTwoDigits? start
  let rest ← exactly? ':' rest
  let (minute, rest) ← exactDigits? 2 rest
  let rest ← exactly? ':' rest
  let (second, rest) ← exactDigits? 2 rest
  let (fraction, rest) :=
    match rest with
    | '.' :: rest => (rest.takeWhile Char.isDigit, rest.dropWhile Char.isDigit)
    | rest => ([], rest)
  let offset ← readOffset? rest
  some { date with
    hour := some (Text.numberOf hour), minute := Text.numberOf minute, second := Text.numberOf second, fraction,
    offset }

/-- A text without the line feed at its end, if there is one. -/
def withoutLineFeed (characters : List Char) : List Char :=
  if characters.getLast? == some '\n' then characters.dropLast else characters

/-- Reads a time: a date, with the time of day or without it. -/
def readTimestamp? (text : List Char) : Option Timestamp := do
  let (year, rest) ← exactDigits? 4 (withoutLineFeed text)
  let rest ← exactly? '-' rest
  let (month, rest) ← oneOrTwoDigits? rest
  let rest ← exactly? '-' rest
  let (day, rest) ← oneOrTwoDigits? rest
  let date : Timestamp :=
    { year := Text.numberOf year, month := Text.numberOf month, day := Text.numberOf day }
  if rest.isEmpty then some date else readClock? date rest

/-- Whether a text is a time. A date alone has two digits for the month and for the day. -/
def isTimestamp (characters : List Char) : Bool :=
  (readTimestamp? characters).any fun time => time.hour.isSome || characters.length == 10

/-- The tag of a scalar that has none of its own. -/
def ofPlain (text : String) : Tag :=
  let characters := withoutLineFeed text.toList
  let form := String.ofList characters
  if text == "\n" then .text
  else if nullWords.contains form then .null
  else if booleanWords.any fun entry => isWord entry.1 form then .boolean
  else if isReal characters then .real
  else if isInteger characters then .integer
  else if form == "<<" then .merge
  else if form == "=" then .equals
  else if isTimestamp characters then .timestamp
  else if form == "!" || form == "&" || form == "*" then .indicator
  else .text

end Tag

end ResourceServer.Yaml
