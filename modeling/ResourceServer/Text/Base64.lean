/-!
# Bytes in text

Four letters of an alphabet of 64 stand for three bytes. Characters beyond the alphabet count for nothing. The
last group may be short; padding fills it up, and ends the bytes as soon as it does.
-/

namespace ResourceServer.Text

/-- The six bits that a character of the alphabet stands for. -/
def sextet? (character : Char) : Option Nat :=
  if 'A' ≤ character ∧ character ≤ 'Z' then some (character.toNat - 'A'.toNat)
  else if 'a' ≤ character ∧ character ≤ 'z' then some (character.toNat - 'a'.toNat + 26)
  else if '0' ≤ character ∧ character ≤ '9' then some (character.toNat - '0'.toNat + 52)
  else if character = '+' then some 62
  else if character = '/' then some 63
  else none

/-- The bytes of a group of letters; four letters make three bytes, and of fewer letters the bits that fill no
byte are dropped. -/
def groupBytes : List Nat → List UInt8
  | first :: second :: third :: fourth :: _ =>
      [UInt8.ofNat (first * 4 + second / 16), UInt8.ofNat (second % 16 * 16 + third / 4),
        UInt8.ofNat (third % 4 * 64 + fourth)]
  | [first, second, third] =>
      [UInt8.ofNat (first * 4 + second / 16), UInt8.ofNat (second % 16 * 16 + third / 4)]
  | [first, second] => [UInt8.ofNat (first * 4 + second / 16)]
  | _ => []

/-- Reads bytes, given the letters of the group that has begun and the padding behind it. -/
def bytesFrom? (group : List Nat) (padding : Nat) : List Char → Option (List UInt8)
  | [] => if group.isEmpty then some [] else none
  | character :: rest =>
      if character = '=' then
        if 2 ≤ group.length ∧ 4 ≤ group.length + padding + 1 then some (groupBytes group)
        else bytesFrom? group (if 2 ≤ group.length then padding + 1 else padding) rest
      else
        match sextet? character with
        | none => bytesFrom? group padding rest
        | some letter =>
            if group.length = 3 then (bytesFrom? [] 0 rest).map (groupBytes (group ++ [letter]) ++ ·)
            else bytesFrom? (group ++ [letter]) 0 rest

/-- The bytes that a text stands for. -/
def bytesOf? (text : String) : Option (List UInt8) := bytesFrom? [] 0 text.toList

end ResourceServer.Text
