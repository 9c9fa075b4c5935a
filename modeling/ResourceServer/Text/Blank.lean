import ResourceServer.Text.Range

/-!
# Blank characters

Every trimming of request text removes the characters of this class: the separators of the Unicode
standard and the control characters it treats as spaces. A zero width space is not among them.
-/

namespace ResourceServer.Text

/-- The code points that trimming removes. -/
def blankRanges : List CodeRange := [
  (0x9, 0xd), (0x1c, 0x20), (0x85, 0x85), (0xa0, 0xa0), (0x1680, 0x1680), (0x2000, 0x200a),
  (0x2028, 0x2029), (0x202f, 0x202f), (0x205f, 0x205f), (0x3000, 0x3000)]

/-- Whether trimming removes the character. -/
def isBlank (character : Char) : Bool := inRanges blankRanges character

/-- Whether the character may stand around a numeral: a blank one that is no separator of information. -/
def isPadding (character : Char) : Bool :=
  isBlank character && !(0x1c ≤ character.toNat && character.toNat ≤ 0x1f)

/-- Removes blank characters in front. -/
def trimLeft (characters : List Char) : List Char := characters.dropWhile isBlank

/-- Removes the characters of a class at both ends. -/
def trimBy (isOuter : Char → Bool) (text : String) : String :=
  String.ofList (((text.toList.dropWhile isOuter).reverse.dropWhile isOuter).reverse)

/-- Removes blank characters at both ends. -/
def trim (text : String) : String := trimBy isBlank text

/-- Removes what may stand around a numeral. -/
def trimPadding (text : String) : String := trimBy isPadding text

/-- Removes what may stand around a numeral that may have digits of any script: once there is a character
beyond ASCII, separators of information count as blanks too. -/
def trimNumeral (text : String) : String :=
  if text.toList.all fun character => character.toNat < 0x80 then trimPadding text else trim text

end ResourceServer.Text
