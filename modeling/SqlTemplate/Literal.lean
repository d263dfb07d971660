import SqlTemplate.Binary64.Text
import SqlTemplate.Escaping
import SqlTemplate.Value

/-!
SQL literals of scalar values.

Only scalars have a literal. Truth values are written as `1` and `0`, numbers in decimal, text
between single quotes and through the escaper. A list, a mapping, the skip sentinel and a float
that is not finite have none.
-/

set_option autoImplicit false

namespace SqlTemplate

/-- The text that stands for the absence of a value. -/
def nullText : String := "NULL"

/-- Floats in SQL: plain text from `0.00001` up to `10 ^ 16`, whole numbers without a point. -/
def sqlNumber : NumberStyle := ⟨-5, 16, []⟩

/-- The SQL text of a float. -/
def Binary64.literal (x : Binary64) : Except Error String :=
  if x.isFinite then .ok (x.text sqlNumber) else .error (.unquotable "non-finite float")

/-- A list of items as it stands in SQL. -/
def commaSeparated (items : List String) : String :=
  String.intercalate ", " items

/-- The SQL literal of a value. -/
def Value.literal (escape : Escaper) : Value → Except Error String
  | null => .ok nullText
  | bool truth => .ok (if truth then "1" else "0")
  | int number => .ok (Decimal.integerText number.toInt)
  | float number => number.literal
  | text content => .ok ("'" ++ escape content ++ "'")
  | sequence items => .error (.unquotable (sequence items).kind.name)
  | mapping entries => .error (.unquotable (mapping entries).kind.name)
  | skip => .error (.unquotable skip.kind.name)

end SqlTemplate
