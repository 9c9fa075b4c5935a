/-!
# Ranges of code points

Character classes are kept as increasing lists of closed ranges of code points.
-/

namespace ResourceServer.Text

/-- A closed range of code points. -/
abbrev CodeRange := Nat × Nat

/-- Whether a character lies in one of the ranges. -/
def inRanges (ranges : List CodeRange) (character : Char) : Bool :=
  ranges.any fun range => range.1 ≤ character.toNat && character.toNat ≤ range.2

end ResourceServer.Text
