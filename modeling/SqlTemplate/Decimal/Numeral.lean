import SqlTemplate.Decimal.Basic

/-!
Decimal numerals as they are written: a sign, digits before and after a point, an exponent.

A numeral keeps its digits, so that readers with different ideas of its value can share it. Without
a point and an exponent it is integral. `decimal` is its size, exact unless its exponent is cut.
-/

set_option autoImplicit false

namespace SqlTemplate

/-- A written number. -/
structure Numeral where
  negative : Bool
  /-- The digits before the point. -/
  whole : List Char
  /-- The digits after the point, if there is a point. -/
  fraction : Option (List Char)
  /-- The power of ten, if there is one. -/
  exponent : Option Int
  deriving DecidableEq, Repr

namespace Numeral

/-- Whether the numeral has neither a point nor an exponent. -/
def isIntegral (n : Numeral) : Bool :=
  n.fraction.isNone && n.exponent.isNone

/-- The digits after the point, none if there is no point. -/
def fractionDigits (n : Numeral) : List Char :=
  n.fraction.getD []

/-- Exponents below this bound count in full. -/
def exponentLimit : Nat := 655360

/-- An exponent as far as it counts: the last digits of one that reaches the limit are dropped until
it stays below. The limit is far beyond the range of floats, so a numeral is affected only if it has
more than sixty thousand digits of its own. -/
def cutExponent (size : Nat) : Nat :=
  if size < exponentLimit then size else cutExponent (size / 10)
termination_by size
decreasing_by simp only [exponentLimit] at *; omega

/-- An exponent below the limit is not cut. -/
theorem cutExponent_of_lt {size : Nat} (h : size < exponentLimit) : cutExponent size = size := by
  unfold cutExponent
  exact if_pos h

/-- The power of ten that counts; zero if there is none. -/
def countedExponent (n : Numeral) : Int :=
  let exponent := n.exponent.getD 0
  if exponent < 0 then -cutExponent exponent.natAbs else cutExponent exponent.natAbs

/-- The number without its sign. -/
def decimal (n : Numeral) : Decimal :=
  ⟨Decimal.ofDigits (n.whole ++ n.fractionDigits),
    n.countedExponent - n.fractionDigits.length⟩

/-- The digits before the point as a signed integer. -/
def wholeInt (n : Numeral) : Int :=
  let size : Int := Decimal.ofDigits n.whole
  if n.negative then -size else size

/-! ## Reading the parts of a numeral -/

/-- The digits at the head of a text, and what follows them. -/
def readDigits (text : List Char) : List Char × List Char :=
  (text.takeWhile Char.isDigit, text.dropWhile Char.isDigit)

/-- An optional sign at the head of a text: whether it is a minus, and what follows it. -/
def readSign : List Char → Bool × List Char
  | [] => (false, [])
  | c :: rest =>
    if c = '-' then (true, rest) else if c = '+' then (false, rest) else (false, c :: rest)

/-- An exponent at the head of a text, and what follows it. A letter that no exponent follows is
left where it is. -/
def readExponent : List Char → Option Int × List Char
  | [] => (none, [])
  | c :: rest =>
    let (negative, unsigned) := readSign rest
    let (digits, after) := readDigits unsigned
    if (c = 'e' ∨ c = 'E') ∧ digits ≠ [] then
      let size : Int := Decimal.ofDigits digits
      (some (if negative then -size else size), after)
    else (none, c :: rest)

end Numeral

end SqlTemplate
