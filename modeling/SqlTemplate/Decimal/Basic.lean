import SqlTemplate.Decimal.Digits

/-!
Unsigned decimal numbers `coefficient · 10 ^ exponent`, and the two ways to lay one out as text.

Plain text writes every place down to the last digit of the coefficient and has no exponent.
Exponent text writes one digit before the point, the others after it, and then the power of ten.
-/

set_option autoImplicit false

namespace SqlTemplate

/-- The number `coefficient · 10 ^ exponent`. -/
structure Decimal where
  coefficient : Nat
  exponent : Int
  deriving DecidableEq, Repr

namespace Decimal

/-- The number as a fraction `(numerator, denominator)` of natural numbers. -/
def fraction (d : Decimal) : Nat × Nat :=
  (d.coefficient * Nat.pow 10 d.exponent.toNat, Nat.pow 10 (-d.exponent).toNat)

/-- The place of the first digit: a number of order `k` lies in `[10 ^ k, 10 ^ (k + 1))`. -/
def order (d : Decimal) : Int :=
  digitCount d.coefficient + d.exponent - 1

/-- Plain text. `places` is what a whole number shows after its last digit. -/
def plain (d : Decimal) (places : List Char) : List Char :=
  let written := digits d.coefficient
  if 0 ≤ d.exponent then
    written ++ List.replicate d.exponent.toNat '0' ++ places
  else
    let below := (-d.exponent).toNat
    if below < written.length then
      written.take (written.length - below) ++ '.' :: written.drop (written.length - below)
    else
      '0' :: '.' :: (List.replicate (below - written.length) '0' ++ written)

/-- Exponent text: `d.ddde-x`. -/
def scientific (d : Decimal) : List Char :=
  let power := 'e' :: (integerText d.order).toList
  match digits d.coefficient with
  | [] => power
  | [first] => first :: power
  | first :: rest => first :: '.' :: (rest ++ power)

end Decimal

end SqlTemplate
