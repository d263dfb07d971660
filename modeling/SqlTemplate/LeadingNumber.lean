import SqlTemplate.Binary64.Rounding
import SqlTemplate.Decimal.Numeral
import SqlTemplate.Text.WhiteSpace

/-!
The number at the head of a text.

After white space the longest head of the form

    [+-]? (D+ (. D*)? | . D+) ([eE] [+-]? D+)?

with `D` an ASCII digit is the leading number of a text. An integral one stands for an integer
clamped to 64 bits, any other for the 64-bit float nearest to its decimal. Both can be had as an
integer and as a float.
-/

set_option autoImplicit false

namespace SqlTemplate

/-- The 64-bit integer nearest to an integer. -/
def clampToInt64 (n : Int) : Int64 :=
  Int64.ofInt (max Int64.minValue.toInt (min Int64.maxValue.toInt n))

/-- A float rounded toward zero and clamped to 64 bits; what is no number counts as zero. -/
def Binary64.toInt64 (x : Binary64) : Int64 :=
  if x.isNaN then 0 else clampToInt64 x.truncate

namespace LeadingNumber

/-- A point with the digits after it, and what follows them. A point that would stand without any
digit before or after it is left where it is. -/
def readFraction (whole : List Char) : List Char → Option (List Char) × List Char
  | [] => (none, [])
  | c :: rest =>
    let (digits, after) := Numeral.readDigits rest
    if c = '.' ∧ (whole ≠ [] ∨ digits ≠ []) then (some digits, after) else (none, c :: rest)

/-- The number at the very head of a text, and what follows it. -/
def read? (text : List Char) : Option (Numeral × List Char) :=
  let (negative, unsigned) := Numeral.readSign text
  let (whole, afterWhole) := Numeral.readDigits unsigned
  let (fraction, afterFraction) := readFraction whole afterWhole
  if whole = [] ∧ fraction = none then none
  else
    let (exponent, rest) := Numeral.readExponent afterFraction
    some (⟨negative, whole, fraction, exponent⟩, rest)

/-- The leading number of a text, after white space. -/
def ofText? (text : String) : Option Numeral :=
  (read? (dropWhiteSpace text.toList)).map Prod.fst

end LeadingNumber

namespace Numeral

/-- The numeral as an integer: rounded toward zero and clamped. -/
def toInt64 (n : Numeral) : Int64 :=
  if n.isIntegral then clampToInt64 n.wholeInt
  else (Binary64.ofDecimal n.negative n.decimal).toInt64

/-- The numeral as a float. An integral one goes by way of its 64-bit integer. -/
def toBinary64 (n : Numeral) : Binary64 :=
  if n.isIntegral then Binary64.ofInt (clampToInt64 n.wholeInt).toInt
  else Binary64.ofDecimal n.negative n.decimal

end Numeral

end SqlTemplate
