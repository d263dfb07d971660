import SqlTemplate.LeadingNumber
import SqlTemplate.Literal
import SqlTemplate.Template.Marker

/-!
Formatting: the SQL text of a value, by the marker that asks for it.

Null and the skip sentinel are written as `NULL` at every marker; whether the block around is kept
is decided elsewhere. For all other values the marker says what shape it takes and how numbers are
read out of text. A misfit is an error that names the marker and the shape; in a list the first
misfit counts.
-/

set_option autoImplicit false

namespace SqlTemplate

/-- The report that a value does not fit a marker. -/
def Marker.misfit (marker : Marker) (value : Value) : Error :=
  .shapeMismatch marker.text value.kind.name

/-- A name between backticks. Names are trusted and are not changed. -/
def quotedIdentifier (name : String) : String :=
  "`" ++ name ++ "`"

namespace Value

/-- A scalar as an integer: floats are rounded toward zero and clamped, text counts by its leading
number, and text without one is zero. -/
def toInt64? : Value → Option Int64
  | bool truth => some (if truth then 1 else 0)
  | int number => some number
  | float number => some number.toInt64
  | text content => some ((LeadingNumber.ofText? content).elim 0 Numeral.toInt64)
  | null | sequence _ | mapping _ | skip => none

/-- A scalar as a float: text counts by its leading number, and text without one is zero. -/
def toBinary64? : Value → Option Binary64
  | bool truth => some (Binary64.ofInt (if truth then 1 else 0))
  | int number => some (Binary64.ofInt number.toInt)
  | float number => some number
  | text content =>
    some ((LeadingNumber.ofText? content).elim (Binary64.ofInt 0) Numeral.toBinary64)
  | null | sequence _ | mapping _ | skip => none

/-- One scalar as a literal. -/
def formatScalar (escape : Escaper) : Value → Except Error String
  | sequence items => .error (Marker.scalar.misfit (sequence items))
  | mapping entries => .error (Marker.scalar.misfit (mapping entries))
  | value => value.literal escape

/-- An integer in decimal. -/
def formatInteger (value : Value) : Except Error String :=
  match value.toInt64? with
  | some number => .ok (Decimal.integerText number.toInt)
  | none => .error (Marker.integer.misfit value)

/-- A float as a literal. -/
def formatFloat (value : Value) : Except Error String :=
  match value.toBinary64? with
  | some number => number.literal
  | none => .error (Marker.float.misfit value)

/-- One named value, as an assignment writes it. -/
def formatEntry (escape : Escaper) (entry : String × Value) : Except Error String := do
  let written ← entry.2.literal escape
  return quotedIdentifier entry.1 ++ " = " ++ written

/-- A list of literals, or of named literals. -/
def formatArray (escape : Escaper) : Value → Except Error String
  | sequence items => commaSeparated <$> items.mapM (literal escape)
  | mapping entries => commaSeparated <$> entries.mapM (formatEntry escape)
  | value => .error (Marker.array.misfit value)

/-- One identifier. -/
def formatName : Value → Except Error String
  | text name => .ok (quotedIdentifier name)
  | value => .error (Marker.identifier.misfit value)

/-- One identifier or a list of them. -/
def formatIdentifiers : Value → Except Error String
  | sequence items => commaSeparated <$> items.mapM formatName
  | value => value.formatName

end Value

/-- The text that replaces a marker for a value. -/
def Marker.format (escape : Escaper) (marker : Marker) (value : Value) : Except Error String :=
  match value with
  | .null | .skip => .ok nullText
  | value =>
    match marker with
    | scalar => value.formatScalar escape
    | integer => value.formatInteger
    | float => value.formatFloat
    | array => value.formatArray escape
    | identifier => value.formatIdentifiers

end SqlTemplate
