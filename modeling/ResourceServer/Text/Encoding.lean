import ResourceServer.Text.Range

/-!
# Characters as bytes

Text is carried as bytes in one of three encodings. In UTF-8 a character takes one byte to four. In UTF-16 it takes
one or two units of two bytes, and in UTF-32 one unit of four bytes, where the bytes of a unit come in either order.
The first characters of the texts read here are ASCII, so that the places of the zero bytes among the first
four give the encoding away.
-/

namespace ResourceServer.Text

/-- A byte. -/
abbrev Byte := Nat

/-! ## UTF-8 -/

/-- What the first byte of a character says: how many bytes follow, the bits it brings along, and the range
of the byte after it. -/
structure Lead where
  following : Nat
  bits : Nat
  least : Byte := 0x80
  greatest : Byte := 0xbf
deriving DecidableEq, Repr

/-- What a byte says as the first one of a character. -/
def Lead.ofByte? (byte : Byte) : Option Lead :=
  if byte < 0x80 then some ⟨0, byte, 0x80, 0xbf⟩
  else if 0xc2 ≤ byte ∧ byte ≤ 0xdf then some { following := 1, bits := byte - 0xc0 }
  else if byte = 0xe0 then some { following := 2, bits := 0, least := 0xa0 }
  else if byte = 0xed then some { following := 2, bits := 0xd, greatest := 0x9f }
  else if 0xe1 ≤ byte ∧ byte ≤ 0xef then some { following := 2, bits := byte - 0xe0 }
  else if byte = 0xf0 then some { following := 3, bits := 0, least := 0x90 }
  else if byte = 0xf4 then some { following := 3, bits := 4, greatest := 0x8f }
  else if 0xf1 ≤ byte ∧ byte ≤ 0xf3 then some { following := 3, bits := byte - 0xf0 }
  else none

/-- Reads the bytes that follow the first one of a character: its code, if they are complete, and the bytes
after them. -/
def readFollowing (code : Nat) (least greatest : Byte) : (count : Nat) → List Byte → Option Nat × List Byte
  | 0, bytes => (some code, bytes)
  | _ + 1, [] => (none, [])
  | count + 1, byte :: rest =>
      if least ≤ byte ∧ byte ≤ greatest then
        readFollowing (code * 64 + (byte - 0x80)) 0x80 0xbf count rest
      else (none, byte :: rest)

/-- The characters of bytes. Bytes that are none become replacement characters, one for each run that could
have started a character. -/
def charactersOf : (budget : Nat) → List Byte → List Char
  | 0, _ => []
  | _, [] => []
  | budget + 1, byte :: rest =>
      match Lead.ofByte? byte with
      | none => '\ufffd' :: charactersOf budget rest
      | some lead =>
          let (code, remaining) := readFollowing lead.bits lead.least lead.greatest lead.following rest
          let character := match code with
            | some code => Char.ofNat code
            | none => '\ufffd'
          character :: charactersOf budget remaining

/-- The bytes of a text in UTF-8. -/
def bytesOf (text : String) : List Byte := text.toUTF8.toList.map UInt8.toNat

/-- The characters of bytes in UTF-8, without the mark that may stand in front of them. -/
def charactersOfMarked : List Byte → List Char
  | 0xef :: 0xbb :: 0xbf :: rest => charactersOf rest.length rest
  | bytes => charactersOf bytes.length bytes

/-! ## Units of several bytes -/

/-- Which byte of a unit comes first. -/
inductive ByteOrder
  | greatestFirst
  | leastFirst
deriving DecidableEq, Repr

/-- The number that the bytes of a unit make. -/
def ByteOrder.number (order : ByteOrder) (bytes : List Byte) : Nat :=
  let ordered := match order with
    | .greatestFirst => bytes
    | .leastFirst => bytes.reverse
  ordered.foldl (fun total byte => total * 256 + byte) 0

/-- The units of two bytes, unless a byte is left over. -/
def pairUnits? (order : ByteOrder) : List Byte → Option (List Nat)
  | [] => some []
  | [_] => none
  | first :: second :: rest => (pairUnits? order rest).map (order.number [first, second] :: ·)

/-- The characters of units of two bytes. Two halves make one character beyond the range of a unit; a half that
stands alone is replaced. -/
def joinHalves : List Nat → List Char
  | [] => []
  | [unit] => [if unit < 0xd800 ∨ 0xe000 ≤ unit then Char.ofNat unit else '\ufffd']
  | unit :: next :: rest =>
      if unit < 0xd800 ∨ 0xe000 ≤ unit then Char.ofNat unit :: joinHalves (next :: rest)
      else if unit < 0xdc00 ∧ 0xdc00 ≤ next ∧ next < 0xe000 then
        Char.ofNat (0x10000 + (unit - 0xd800) * 0x400 + (next - 0xdc00)) :: joinHalves rest
      else '\ufffd' :: joinHalves (next :: rest)

/-- The characters of units of four bytes, unless bytes are left over or a unit is beyond all characters. -/
def quadCharacters? (order : ByteOrder) : List Byte → Option (List Char)
  | [] => some []
  | first :: second :: third :: fourth :: rest =>
      let code := order.number [first, second, third, fourth]
      if 0x10ffff < code then none
      else
        let character := if 0xd800 ≤ code ∧ code < 0xe000 then '\ufffd' else Char.ofNat code
        (quadCharacters? order rest).map (character :: ·)
  | _ => none

/-! ## Encodings -/

/-- How characters are written as bytes. -/
inductive Encoding
  | utf8
  | utf16 (order : ByteOrder)
  | utf32 (order : ByteOrder)
deriving DecidableEq, Repr

namespace Encoding

/-- The encoding that the first bytes of a text give away. -/
def ofBytes : List Byte → Encoding
  | 0 :: second :: _ :: _ :: _ => if second = 0 then .utf32 .greatestFirst else .utf16 .greatestFirst
  | _ :: 0 :: third :: fourth :: _ =>
      if third = 0 ∧ fourth = 0 then .utf32 .leastFirst else .utf16 .leastFirst
  | [0, _] => .utf16 .greatestFirst
  | [_, 0] => .utf16 .leastFirst
  | _ => .utf8

/-- The characters of bytes in an encoding, unless the bytes do not fit it. -/
def characters? (bytes : List Byte) : Encoding → Option (List Char)
  | .utf8 => some (charactersOfMarked bytes)
  | .utf16 order => (pairUnits? order bytes).map joinHalves
  | .utf32 order => quadCharacters? order bytes

end Encoding

/-- The characters of bytes in the encoding that they give away themselves. -/
def decodedCharacters? (bytes : List Byte) : Option (List Char) :=
  (Encoding.ofBytes bytes).characters? bytes

end ResourceServer.Text
