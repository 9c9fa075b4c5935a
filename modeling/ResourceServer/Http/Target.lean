import ResourceServer.Error
import ResourceServer.Numeric.Numeral
import ResourceServer.Schema.Registry
import ResourceServer.Text.Digit
import ResourceServer.Text.Encoding

/-!
# Targets of requests

A client names what it wants by an address: a scheme and an authority, which may be missing, and a path, possibly
with a query behind a question mark. The target of its request is what the path and the query stand for. Both are
written in ASCII, with the bytes of other characters as escapes by code. A query is a list of names and values, in
which a plus sign stands for a space.
-/

namespace ResourceServer.Http

/-! ## Escapes -/

/-- The bytes that are written, with each escape replaced by its byte. -/
def unescaped : List Text.Byte → List Text.Byte
  | 0x25 :: first :: second :: rest =>
      match Text.hexDigit? (Char.ofNat first), Text.hexDigit? (Char.ofNat second) with
      | some high, some low => (high * 16 + low) :: unescaped rest
      | _, _ => 0x25 :: unescaped (first :: second :: rest)
  | byte :: rest => byte :: unescaped rest
  | [] => []

/-- The text that is written with escapes. -/
def decoded (text : String) : String :=
  let bytes := unescaped (Text.bytesOf text)
  String.ofList (Text.charactersOf bytes.length bytes)

/-- The text that a part of a query stands for. -/
def decodedField (text : String) : String :=
  decoded (String.ofList (text.toList.map fun character => if character = '+' then ' ' else character))

/-! ## Queries and targets -/

/-- Splits a text at the first occurrence of a separator. -/
def splitAtFirst (separator : Char) (text : String) : String × Option String :=
  let characters := text.toList
  let before := String.ofList (characters.takeWhile (· != separator))
  match characters.dropWhile (· != separator) with
  | [] => (before, none)
  | _ :: after => (before, some (String.ofList after))

/-- A name and a value as they are written in a query; without a value it is empty. -/
def readPair (text : String) : String × String :=
  let (name, value) := splitAtFirst '=' text
  (decodedField name, decodedField (value.getD ""))

/-- The names and values of a query, in order. -/
def readQuery (text : String) : List (String × String) :=
  let parts := (splitAtEvery '&' text.toList).map String.ofList
  (parts.filter fun part => !part.isEmpty).map readPair

/-- The parameters of a query; of several values of a name the last one counts. -/
def queryRecord (pairs : List (String × String)) : Record :=
  pairs.foldl (fun record pair => Record.set record pair.1 (.text pair.2)) []

/-- The text that stands for a value in a query. -/
def queryText : Value → String
  | .null => ""
  | .bool flag => if flag then "true" else "false"
  | value => value.plain

/-- The names and values of a query with the given parameters; a list stands for several values. -/
def queryPairs (parameters : Record) : List (String × String) :=
  parameters.flatMap fun (name, value) =>
    match value with
    | .list items => items.map fun item => (name, queryText item)
    | value => [(name, queryText value)]

/-- How many characters a text takes in a query: letters, digits, a few marks and spaces take one, and every byte of
another character takes three. -/
def encodedLength (text : String) : Nat :=
  text.toList.foldl (fun length character =>
    if character.isAlphanum || ['_', '.', '-', '~', ' '].contains character then length + 1
    else length + 3 * character.utf8Size) 0

/-- How many characters names and values take as a query. -/
def queryLength (pairs : List (String × String)) : Nat :=
  pairs.foldl (fun length (name, value) => length + encodedLength name + encodedLength value + 2) 0 - 1

/-! ## Addresses -/

/-- Why a text is no address. -/
inductive AddressFault
  | tooLong
  | controlCharacter
  | authority
  | relativePath
  | scheme (word : String)
deriving DecidableEq, Repr

/-- The error that a fault of an address is. -/
def AddressFault.toError : AddressFault → Error
  | .scheme word => .lookup (.scheme word)
  | _ => .plain .address

/-- The parts of an address as they are written. -/
structure Address where
  scheme : String := ""
  authority : String := ""
  path : String
  query : Option String := none
deriving DecidableEq, Repr, Inhabited

/-- How long an address and each of its parts may be. -/
def addressLimit : Nat := 65536

/-- The segments of a path without those that are dots: one dot stands for the place itself, two dots for
the one above it. The segments that are kept so far come in reverse. -/
def resolveDots (kept : List String) : List String → List String
  | [] => kept.reverse
  | segment :: rest =>
      if segment = "." then resolveDots kept rest
      else if segment = ".." then resolveDots (if kept = [""] then kept else kept.drop 1) rest
      else resolveDots (segment :: kept) rest

/-- A path without the segments that are dots. -/
def withoutDots (path : String) : String :=
  String.intercalate "/" (resolveDots [] ((splitAtEvery '/' path.toList).map String.ofList))

namespace Address

/-- Whether a text can be the scheme of an address: a letter, then letters, digits and some marks. -/
def isScheme (characters : List Char) : Bool :=
  match characters with
  | [] => true
  | first :: rest =>
      first.isAlpha && rest.all fun character => character.isAlphanum || ['+', '.', '-'].contains character

/-- Splits an address into its parts. What stands behind a number sign does not belong to it. -/
def split (text : String) : Address :=
  let text := (splitAtFirst '#' text).1
  let (scheme, rest) :=
    match splitAtFirst ':' text with
    | (scheme, some rest) => if isScheme scheme.toList then (scheme, rest) else ("", text)
    | (_, none) => ("", text)
  let (place, query) := splitAtFirst '?' rest
  match place.toList with
  | '/' :: '/' :: characters =>
      { scheme, authority := String.ofList (characters.takeWhile (· != '/'))
        path := String.ofList (characters.dropWhile (· != '/')), query }
  | _ => { scheme, path := place, query }

/-- The host of an address and the number behind it; the name of a user in front of them is left out. -/
def hostAndNumber (address : Address) : String × String :=
  let characters := (address.authority.toList.reverse.takeWhile (· != '@')).reverse
  let bracketed := (characters.reverse.dropWhile (· != ']')).reverse
  let host :=
    if characters.head? = some '[' ∧ !bracketed.isEmpty then bracketed
    else characters.takeWhile (· != ':')
  let rest := characters.drop host.length
  (String.ofList host, String.ofList (if rest.head? = some ':' then rest.drop 1 else rest))

/-- Whether an address says where it leads without regard to the place it stands at. -/
def isAbsolute (address : Address) : Bool := !address.scheme.isEmpty && !address.hostAndNumber.1.isEmpty

/-- The schemes whose requests arrive here. -/
def schemes : List String := ["http", "https"]

/-- Reads an address. -/
def ofText (text : String) : Except AddressFault Address := do
  if addressLimit < text.length then .error .tooLong
  else if text.toList.any fun character => character.toNat < 0x20 || character.toNat == 0x7f then
    .error .controlCharacter
  else
    let address := split text
    let (_, number) := address.hostAndNumber
    if !number.isEmpty && (Numeral.readInt number).toOption.isNone then .error .authority
    else if !address.scheme.isEmpty || !address.authority.isEmpty then
      .ok { address with path := withoutDots address.path }
    else
      match address.path.toList with
      | '/' :: '/' :: _ => .error .relativePath
      | ':' :: _ => .error .relativePath
      | _ => .ok address

/-- The path that an address leads to, as it is written. A path that is not absolute starts at the root. -/
def place (address : Address) : String :=
  if address.isAbsolute then address.path
  else withoutDots ("/" ++ String.ofList (address.path.toList.dropWhile (· == '/')))

end Address

/-! ## Targets -/

/-- A path with the names and values of its query. -/
structure Target where
  path : String
  query : List (String × String) := []
deriving DecidableEq, Repr, Inhabited

namespace Target

/-- Reads a target. Escapes in its path are replaced on the side that sends it, and once more on the side that
receives it. -/
def ofText (text : String) : Except AddressFault Target := do
  let address ← Address.ofText text
  if address.isAbsolute && !Address.schemes.contains address.scheme.toLower then
    .error (.scheme address.scheme.toLower)
  else
    let place := address.place
    .ok { path := if place.isEmpty then "/" else decoded (decoded place), query := readQuery (address.query.getD "") }

/-- A target with another query. -/
def withQuery (target : Target) (pairs : List (String × String)) : Except AddressFault Target :=
  if addressLimit < queryLength pairs then .error .tooLong else .ok { target with query := pairs }

/-- The path of a target as it is written in links: the marks that would end a path are escaped, and the
characters that would part lines or columns are left out. -/
def linkPath (target : Target) : String :=
  String.join (target.path.toList.map fun character =>
    if character = '?' then "%3F"
    else if character = '#' then "%23"
    else if ['\t', '\r', '\n'].contains character then ""
    else String.singleton character)

end Target

end ResourceServer.Http
