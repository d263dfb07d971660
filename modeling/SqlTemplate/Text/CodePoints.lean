/-!
Sets of characters as ranges of code points.
-/

set_option autoImplicit false

namespace SqlTemplate

/-- Ranges of code points, each by its first and its last one. -/
abbrev CodePoints := List (Nat × Nat)

/-- Whether a character lies in one of the ranges. -/
def CodePoints.contains (ranges : CodePoints) (c : Char) : Bool :=
  ranges.any fun (first, last) => decide (first ≤ c.toNat) && decide (c.toNat ≤ last)

end SqlTemplate
