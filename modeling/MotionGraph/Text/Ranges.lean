/-!
# Ranges of characters

Properties of characters are tables of ranges of code points. A character has the
property if some range holds it.
-/

namespace MotionGraph

/-- Ranges of code points, each by its first and its last. -/
abbrev CharRanges := List (Nat × Nat)

namespace CharRanges

/-- Whether a character lies in one of the ranges. -/
def holds (ranges : CharRanges) (c : Char) : Bool :=
  ranges.any fun r => r.1 ≤ c.toNat && c.toNat ≤ r.2

end CharRanges

end MotionGraph
