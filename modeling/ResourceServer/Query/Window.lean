/-!
# Windows of lists

A window is given by two positions. A negative position counts from the end of the list, and positions
beyond an end stand for that end.
-/

namespace ResourceServer

/-- The place in a list of the given length that a position stands for. -/
def clampPosition (length : Nat) (position : Int) : Nat :=
  if position < 0 then (position + length).toNat else min position.toNat length

/-- The items from one position up to another. -/
def sliceBetween {α : Type} (items : List α) (start stop : Int) : List α :=
  let first := clampPosition items.length start
  (items.drop first).take (clampPosition items.length stop - first)

/-- The items from a position on. -/
def sliceFrom {α : Type} (items : List α) (start : Int) : List α :=
  items.drop (clampPosition items.length start)

end ResourceServer
