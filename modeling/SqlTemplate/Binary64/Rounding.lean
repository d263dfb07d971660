import SqlTemplate.Binary64.Basic
import SqlTemplate.Decimal.Basic

/-!
Rounding exact values to 64-bit numbers: to the nearest, and of two equally near to the even one.

All values reach this module as fractions of natural numbers, so that nothing is rounded twice. A
fraction is measured in units; the number of its binary places fixes the step, and one integer
division in steps gives the significand. A carry out of the significand moves on to the next
exponent by itself, because magnitudes count on across exponents.
-/

set_option autoImplicit false

namespace SqlTemplate

/-- The natural number nearest to `n / d`; halfway between two, the even one. -/
def roundHalfEven (n d : Nat) : Nat :=
  let quotient := n / d
  let twice := 2 * (n % d)
  if twice < d then quotient
  else if d < twice then quotient + 1
  else if quotient % 2 = 0 then quotient
  else quotient + 1

namespace Binary64

/-- The magnitude nearest to `numerator / denominator`; what is too large becomes infinity. -/
def roundMagnitude (numerator denominator : Nat) : Nat :=
  let scaled := numerator * one
  let step := (scaled / denominator).log2 - 52
  min infinityMagnitude (step * binade + roundHalfEven scaled (denominator * Nat.pow 2 step))

/-- The number nearest to `± numerator / denominator`. -/
def ofFraction (negative : Bool) (numerator denominator : Nat) : Binary64 :=
  ofMagnitude negative (roundMagnitude numerator denominator)

/-- The number nearest to an integer. -/
def ofInt (n : Int) : Binary64 :=
  ofFraction (decide (n < 0)) n.natAbs 1

/-- The number nearest to a signed decimal. Orders beyond the range of the format are settled
without computing the power of ten: from `10 ^ 309` on all is infinite, and below `10 ^ (-324)`,
which is less than half a unit, all is zero. -/
def ofDecimal (negative : Bool) (d : Decimal) : Binary64 :=
  if d.coefficient = 0 ∨ d.order < -324 then ofMagnitude negative 0
  else if 309 ≤ d.order then ofMagnitude negative infinityMagnitude
  else ofFraction negative d.fraction.1 d.fraction.2

/-- The product of two numbers without regard to sign, rounded once. -/
def product (x y : Binary64) : Binary64 :=
  ofFraction false (x.units * y.units) (one * one)

/-- The quotient of two numbers without regard to sign, rounded once; the divisor is not zero. -/
def quotient (x y : Binary64) : Binary64 :=
  ofFraction false x.units y.units

end Binary64

/-- A binary floating-point number of 32 bits, given by its bit pattern. -/
structure Binary32 where
  bits : UInt32
  deriving DecidableEq, Repr

namespace Binary32

/-- The weight of the sign bit. -/
def signWeight : Nat := Nat.pow 2 31

/-- How many magnitudes share one exponent field. -/
def binade : Nat := Nat.pow 2 23

/-- The magnitude of infinity; larger ones are no numbers. -/
def infinityMagnitude : Nat := 255 * binade

/-- How many units make one. -/
def one : Nat := Nat.pow 2 149

/-- The same number in 64 bits. Every value is kept exactly, and what is no number stays so. -/
def widen (x : Binary32) : Binary64 :=
  let negative := decide (signWeight ≤ x.bits.toNat)
  let magnitude := x.bits.toNat % signWeight
  let step := magnitude / binade - 1
  if infinityMagnitude < magnitude then .ofMagnitude negative (Binary64.infinityMagnitude + 1)
  else if magnitude = infinityMagnitude then .ofMagnitude negative Binary64.infinityMagnitude
  else .ofFraction negative ((magnitude - step * binade) * Nat.pow 2 step) one

end Binary32

end SqlTemplate
