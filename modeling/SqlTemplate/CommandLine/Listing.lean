import SqlTemplate.Binary64.Text
import SqlTemplate.Text.Printable
import SqlTemplate.Value

/-!
Values as a listing shows them: the kind of each value, and its content.

Text stands between double quotes, with backslash escapes for quotes, backslashes and line ends and
code points for characters that would not show. Floats have a point or an exponent, so that they
differ from integers.
-/

set_option autoImplicit false

namespace SqlTemplate.CommandLine

/-- Floats in listings: plain text from `0.0001` up to `10 ^ 16`, whole numbers with a zero after
the point. -/
def listingNumber : NumberStyle := ⟨-4, 16, ['.', '0']⟩

/-- A float in a listing. -/
def listFloat (x : Binary64) : String :=
  if x.isNaN then "NaN"
  else if x.isFinite then x.text listingNumber
  else if x.isNegative then "-inf"
  else "inf"

/-- The digits of a code point in base sixteen. -/
def hexDigits (code : Nat) : List Char :=
  Nat.toDigits 16 code

/-- A character of text in a listing. -/
def listChar (c : Char) : List Char :=
  if c = '\x00' then ['\\', '0']
  else if c = '\t' then ['\\', 't']
  else if c = '\n' then ['\\', 'n']
  else if c = '\r' then ['\\', 'r']
  else if c = '\"' then ['\\', '\"']
  else if c = '\\' then ['\\', '\\']
  else if isPlainChar c then [c]
  else '\\' :: 'u' :: '{' :: hexDigits c.toNat ++ ['}']

/-- Text in a listing. -/
def listText (text : String) : String :=
  String.ofList ('\"' :: text.toList.flatMap listChar ++ ['\"'])

mutual

/-- A value in a listing. -/
def listValue : Value → String
  | .null => "Null"
  | .bool truth => "Bool(" ++ (if truth then "true" else "false") ++ ")"
  | .int number => "Int(" ++ Decimal.integerText number.toInt ++ ")"
  | .float number => "Float(" ++ listFloat number ++ ")"
  | .text content => "Text(" ++ listText content ++ ")"
  | .sequence items => "Sequence([" ++ String.intercalate ", " (listItems items) ++ "])"
  | .mapping entries => "Mapping([" ++ String.intercalate ", " (listEntries entries) ++ "])"
  | .skip => "Skip"

/-- The items of a list in a listing. -/
def listItems : List Value → List String
  | [] => []
  | item :: rest => listValue item :: listItems rest

/-- The entries of a mapping in a listing. -/
def listEntries : List (String × Value) → List String
  | [] => []
  | (name, value) :: rest =>
    ("(" ++ listText name ++ ", " ++ listValue value ++ ")") :: listEntries rest

end

end SqlTemplate.CommandLine
