import SqlTemplate.Decimal.Numeral
import SqlTemplate.Value

/-!
JSON numbers: their grammar, and the value that a numeral stands for.

A numeral without point and exponent is an integer if it fits 64 bits with a sign; minus zero is
not one. All other numerals are floats. The digits of a float are kept as long as they fit a 64-bit
natural number; from there on, digits before the point only count as places and digits after it do
not count. The kept digits are rounded to a float once, and once more by the one power of ten that
puts the point in its place. So a float is close to the number written, but not always the nearest.
A float that would be infinite is no value at all.
-/

set_option autoImplicit false

namespace SqlTemplate.Json

/-- A fraction part as JSON has it: a point and at least one digit. -/
def readFraction? : List Char → Option (Option (List Char) × List Char)
  | [] => some (none, [])
  | c :: rest =>
    if c = '.' then
      let (digits, after) := Numeral.readDigits rest
      if digits = [] then none else some (some digits, after)
    else some (none, c :: rest)

/-- A complete JSON number: no plus sign, no superfluous zero before the point. -/
def readNumber? (text : List Char) : Option Numeral :=
  let (negative, unsigned) := if text.head? = some '-' then (true, text.tail) else (false, text)
  let (whole, afterWhole) := Numeral.readDigits unsigned
  if whole = [] ∨ (whole.head? = some '0' ∧ whole ≠ ['0']) then none
  else
    match readFraction? afterWhole with
    | none => none
    | some (fraction, afterFraction) =>
      let (exponent, rest) := Numeral.readExponent afterFraction
      if rest = [] then some ⟨negative, whole, fraction, exponent⟩ else none

/-- Append digits to a number as long as it fits 64 bits; with it, the digits that are left. -/
def keepDigits (kept : Nat) : List Char → Nat × List Char
  | [] => (kept, [])
  | c :: rest =>
    let longer := 10 * kept + Decimal.digitValue c
    if longer < UInt64.size then keepDigits longer rest else (kept, c :: rest)

/-- The digits of a numeral that count, with the place of the last one. -/
def keptDecimal (n : Numeral) : Decimal :=
  let (whole, counted) := keepDigits 0 n.whole
  let (all, ignored) := keepDigits whole n.fractionDigits
  let places : Int := n.fractionDigits.length - ignored.length
  ⟨all, counted.length - places + n.exponent.getD 0⟩

/-- A power of ten as a float. -/
def powerOfTen (k : Nat) : Binary64 :=
  Binary64.ofDecimal false ⟨1, k⟩

/-- The size of a decimal as a float, rounded twice. Powers of ten beyond `10 ^ 308` are no floats;
a smaller number than `10 ^ (-308)` is reached in two steps, and one below `10 ^ (-616)` is zero. -/
def scaledFloat (d : Decimal) : Binary64 :=
  let digits := Binary64.ofInt d.coefficient
  if 308 < d.exponent then
    if d.coefficient = 0 then digits else .ofMagnitude false Binary64.infinityMagnitude
  else if 0 ≤ d.exponent then digits.product (powerOfTen d.exponent.toNat)
  else if -308 ≤ d.exponent then digits.quotient (powerOfTen (-d.exponent).toNat)
  else if -616 ≤ d.exponent then
    (digits.quotient (powerOfTen 308)).quotient (powerOfTen (-d.exponent - 308).toNat)
  else .ofMagnitude false 0

/-- The float that a numeral stands for, if there is one. -/
def floatOf? (n : Numeral) : Option Binary64 :=
  let size := scaledFloat (keptDecimal n)
  if size.isFinite then some (.ofMagnitude n.negative size.magnitude) else none

/-- The integer that a numeral stands for, if it is one. -/
def integerOf? (n : Numeral) : Option Int64 :=
  let number := n.wholeInt
  let inRange := Int64.minValue.toInt ≤ number ∧ number ≤ Int64.maxValue.toInt
  if n.isIntegral ∧ inRange ∧ ¬ (n.negative ∧ number = 0) then some (Int64.ofInt number) else none

/-- The value that a numeral stands for, if there is one. -/
def numberValue? (n : Numeral) : Option Value :=
  match integerOf? n with
  | some number => some (.int number)
  | none => (floatOf? n).map .float

end SqlTemplate.Json
