/-!
Binary floating-point numbers of 64 bits, as exact mathematics on their encoding.

A number is its bit pattern. Below the sign bit, the pattern read as a natural number is the
`magnitude`: it orders the numbers of one sign by size. A finite magnitude stands for a whole
number of `units`, a unit being `2 ^ (-1074)`, the smallest positive number; `units` is
`significand · 2 ^ step`, and neighbouring numbers differ by `2 ^ step` units. So every statement
about values is one about natural numbers.
-/

set_option autoImplicit false

namespace SqlTemplate

/-- A binary floating-point number of 64 bits, given by its bit pattern. -/
structure Binary64 where
  bits : UInt64
  deriving DecidableEq, Repr

namespace Binary64

/-- The weight of the sign bit. -/
def signWeight : Nat := Nat.pow 2 63

/-- How many magnitudes share one exponent field. -/
def binade : Nat := Nat.pow 2 52

/-- The magnitude of infinity; larger ones are no numbers. -/
def infinityMagnitude : Nat := 2047 * binade

/-- How many units make one. -/
def one : Nat := Nat.pow 2 1074

/-- Whether the sign bit is set. -/
def isNegative (x : Binary64) : Bool :=
  decide (signWeight ≤ x.bits.toNat)

/-- The pattern without its sign bit. -/
def magnitude (x : Binary64) : Nat :=
  x.bits.toNat % signWeight

/-- The number with a given sign and magnitude. -/
def ofMagnitude (negative : Bool) (magnitude : Nat) : Binary64 :=
  ⟨UInt64.ofNat (if negative then signWeight + magnitude else magnitude)⟩

/-- Neither an infinity nor "not a number". -/
def isFinite (x : Binary64) : Bool :=
  decide (x.magnitude < infinityMagnitude)

/-- No number at all. -/
def isNaN (x : Binary64) : Bool :=
  decide (infinityMagnitude < x.magnitude)

/-- Neighbours of a magnitude lie `2 ^ step` units apart. -/
def step (magnitude : Nat) : Nat :=
  magnitude / binade - 1

/-- The whole number of steps that a magnitude stands for. -/
def significand (magnitude : Nat) : Nat :=
  magnitude - step magnitude * binade

/-- The distance from zero, in units. The magnitude of infinity reads as `2 ^ 1024`. -/
def units (x : Binary64) : Nat :=
  significand x.magnitude * Nat.pow 2 (step x.magnitude)

/-- The value rounded toward zero, of what is a number; an infinity counts as `± 2 ^ 1024`. -/
def truncate (x : Binary64) : Int :=
  if x.isNegative then -(x.units / one : Nat) else (x.units / one : Nat)

/-- Equality of values: the two zeros are equal, and what is no number equals nothing. -/
def sameValue (x y : Binary64) : Bool :=
  !x.isNaN && !y.isNaN && (x.bits == y.bits || (x.magnitude == 0 && y.magnitude == 0))

end Binary64

end SqlTemplate
