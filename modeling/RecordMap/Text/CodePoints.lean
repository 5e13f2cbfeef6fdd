/-!
# Sets of characters

A character property of Unicode is a list of ranges of code points.  `CodePoints.holds` looks a
character up; the order of the ranges does not matter.
-/

namespace RecordMap.Text

/-- Ranges of code points, both ends included. -/
abbrev CodePoints := List (Nat × Nat)

def CodePoints.holds (s : CodePoints) (c : Char) : Bool :=
  s.any fun r => decide (r.1 ≤ c.toNat) && decide (c.toNat ≤ r.2)

end RecordMap.Text
