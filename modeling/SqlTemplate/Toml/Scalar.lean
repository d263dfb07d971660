import SqlTemplate.Binary64.Rounding
import SqlTemplate.Decimal.Numeral
import SqlTemplate.Toml.Basic
import SqlTemplate.Toml.Lexical

/-!
TOML numbers, dates and truth values.

Integers have 64 bits with a sign, in decimal or without a sign in base 16, 8 or 2; single
underscores may stand between digits, and a decimal has no superfluous zero in front. A float that
would be positive infinity has to be written as `inf`. Dates exist in the calendar and times on the
clock, leap seconds included.
-/

set_option autoImplicit false

namespace SqlTemplate.Toml

/-! ## Numbers -/

/-- Digits, after a first one, with single underscores between them. -/
def readMoreDigits (isDigit : Char → Bool) : Reader (List Char)
  | [] => some ([], [])
  | c :: rest =>
    if isDigit c then (readMoreDigits isDigit rest).map fun (digits, rest) => (c :: digits, rest)
    else if c = '_' then
      match rest with
      | [] => none
      | d :: after =>
        if isDigit d then
          (readMoreDigits isDigit after).map fun (digits, rest) => (d :: digits, rest)
        else none
    else some ([], c :: rest)

/-- At least one digit, with single underscores between digits. -/
def readDigits (isDigit : Char → Bool) : Reader (List Char)
  | [] => none
  | c :: rest =>
    if isDigit c then (readMoreDigits isDigit rest).map fun (digits, rest) => (c :: digits, rest)
    else none

/-- The digits before a point: a single zero, or digits that start with another one. -/
def readWhole : Reader (List Char)
  | '0' :: rest => some (['0'], rest)
  | text => readDigits Char.isDigit text

/-- A fraction, if there is one. -/
def readFraction : Reader (Option (List Char))
  | '.' :: rest => (readDigits Char.isDigit rest).map fun (digits, rest) => (some digits, rest)
  | text => some (none, text)

/-- An exponent, if there is one. -/
def readExponent : Reader (Option Int)
  | [] => some (none, [])
  | c :: rest =>
    if c = 'e' ∨ c = 'E' then
      let (negative, rest) := Numeral.readSign rest
      (readDigits Char.isDigit rest).map fun (digits, rest) =>
        let size : Int := Decimal.ofDigits digits
        (some (if negative then -size else size), rest)
    else some (none, c :: rest)

/-- An integer that has to fit 64 bits. -/
def integerInRange? (number : Int) : Option Toml :=
  if Int64.minValue.toInt ≤ number ∧ number ≤ Int64.maxValue.toInt then some (.integer number)
  else none

/-- The value of a decimal numeral. A float has to be finite or negative. -/
def ofNumeral? (n : Numeral) : Option Toml :=
  if n.isIntegral then integerInRange? n.wholeInt
  else if n.negative || (Binary64.ofDecimal false n.decimal).isFinite then some .float
  else none

/-- A decimal number. -/
def readDecimal : Reader Toml := fun text => do
  let (negative, rest) := Numeral.readSign text
  let (whole, rest) ← readWhole rest
  let (fraction, rest) ← readFraction rest
  let (exponent, rest) ← readExponent rest
  let number ← ofNumeral? ⟨negative, whole, fraction, exponent⟩
  return (number, rest)

/-- The digits of an integer in another base than ten. -/
def readBased (base : Nat) : Reader Toml := fun text => do
  let isDigit (c : Char) := (hexValue? c).any (· < base)
  let (digits, rest) ← readDigits isDigit text
  let size := digits.foldl (fun n c => base * n + (hexValue? c).getD 0) 0
  let number ← integerInRange? size
  return (number, rest)

/-- Infinity or "not a number", with an optional sign. -/
def readSpecial (text : List Char) : Option (Toml × List Char) :=
  match (Numeral.readSign text).2 with
  | 'i' :: 'n' :: 'f' :: rest => some (.float, rest)
  | 'n' :: 'a' :: 'n' :: rest => some (.float, rest)
  | _ => none

/-- A number. -/
def readNumber : Reader Toml
  | '0' :: 'x' :: rest => readBased 16 rest
  | '0' :: 'o' :: rest => readBased 8 rest
  | '0' :: 'b' :: rest => readBased 2 rest
  | text =>
    match readSpecial text with
    | some special => some special
    | none => readDecimal text

/-! ## Dates and times -/

/-- A number of exactly `count` digits. -/
def readFixed (count : Nat) : Reader Nat := fun text =>
  let digits := text.take count
  if digits.length = count ∧ digits.all Char.isDigit then
    some (Decimal.ofDigits digits, text.drop count)
  else none

/-- A given character. -/
def readChar (expected : Char) : Reader Unit
  | [] => none
  | c :: rest => if c = expected then some ((), rest) else none

/-- How many days a month has. -/
def daysIn (year month : Nat) : Nat :=
  if month = 2 then
    if year % 4 = 0 ∧ (year % 100 ≠ 0 ∨ year % 400 = 0) then 29 else 28
  else if month = 4 ∨ month = 6 ∨ month = 9 ∨ month = 11 then 30
  else 31

/-- A day of the calendar. -/
def readDate : Reader Unit := fun text => do
  let (year, rest) ← readFixed 4 text
  let (_, rest) ← readChar '-' rest
  let (month, rest) ← readFixed 2 rest
  let (_, rest) ← readChar '-' rest
  let (day, rest) ← readFixed 2 rest
  if 1 ≤ month ∧ month ≤ 12 ∧ 1 ≤ day ∧ day ≤ daysIn year month then return ((), rest) else none

/-- Hours and minutes. -/
def readHourMinute : Reader Unit := fun text => do
  let (hour, rest) ← readFixed 2 text
  let (_, rest) ← readChar ':' rest
  let (minute, rest) ← readFixed 2 rest
  if hour ≤ 23 ∧ minute ≤ 59 then return ((), rest) else none

/-- Fractions of a second, if there are any. -/
def readSecondFraction : Reader Unit
  | '.' :: rest =>
    if (rest.head?.any Char.isDigit) then some ((), rest.dropWhile Char.isDigit) else none
  | text => some ((), text)

/-- A time of day. -/
def readTime : Reader Unit := fun text => do
  let (_, rest) ← readHourMinute text
  let (_, rest) ← readChar ':' rest
  let (second, rest) ← readFixed 2 rest
  if second ≤ 60 then readSecondFraction rest else none

/-- A distance from universal time, if there is one. -/
def readOffset : Reader Unit
  | [] => some ((), [])
  | c :: rest =>
    if c = 'Z' ∨ c = 'z' then some ((), rest)
    else if c = '+' ∨ c = '-' then readHourMinute rest
    else some ((), c :: rest)

/-- A time after a date, if there is one; it follows a letter or a space. -/
def readTimeAfterDate : Reader Unit
  | [] => some ((), [])
  | c :: rest =>
    if c = 'T' ∨ c = 't' ∨ (c = ' ' ∧ (readFixed 2 rest).isSome) then
      (readTime rest).bind fun (_, rest) => readOffset rest
    else some ((), c :: rest)

/-- A date, a time, or both. -/
def readDateTime : Reader Toml := fun text =>
  if (readFixed 4 text).isSome ∧ (text.drop 4).head? = some '-' then do
    let (_, rest) ← readDate text
    let (_, rest) ← readTimeAfterDate rest
    return (.dateTime, rest)
  else (readTime text).map fun (_, rest) => (.dateTime, rest)

/-! ## All scalars but strings -/

/-- A truth value. -/
def readBoolean : Reader Toml
  | 't' :: 'r' :: 'u' :: 'e' :: rest => some (.boolean true, rest)
  | 'f' :: 'a' :: 'l' :: 's' :: 'e' :: rest => some (.boolean false, rest)
  | _ => none

/-- A scalar that is no string. -/
def readScalar : Reader Toml := fun text =>
  readBoolean text <|> readDateTime text <|> readNumber text

end SqlTemplate.Toml
