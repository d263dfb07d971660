import SqlTemplate.Binary64.Shortest

/-!
Finite 64-bit numbers as text.

A number is written with its shortest digits. Sizes inside a window are written plainly, all others
with an exponent; a style fixes the window and what a whole number shows after its last digit.
-/

set_option autoImplicit false

namespace SqlTemplate

/-- How a number is laid out. -/
structure NumberStyle where
  /-- Plain text from this power of ten on. -/
  plainFrom : Int
  /-- Exponent text from this power of ten on. -/
  plainBelow : Int
  /-- What a whole number in plain text shows after its last digit. -/
  places : List Char

namespace Binary64

/-- Whether a finite number is at least `10 ^ k`, without regard to sign. -/
def reaches (x : Binary64) (k : Int) : Bool :=
  decide (Nat.pow 10 k.toNat * one ≤ x.units * Nat.pow 10 (-k).toNat)

/-- Whether a style writes a finite number without exponent. Zero is always plain. -/
def isPlain (style : NumberStyle) (x : Binary64) : Bool :=
  x.magnitude == 0 || (x.reaches style.plainFrom && !x.reaches style.plainBelow)

/-- The text of a finite number; a set sign bit shows, also on zero. -/
def text (style : NumberStyle) (x : Binary64) : String :=
  let body :=
    if x.isPlain style then x.shortest.plain style.places else x.shortest.scientific
  String.ofList (if x.isNegative then '-' :: body else body)

end Binary64

end SqlTemplate
