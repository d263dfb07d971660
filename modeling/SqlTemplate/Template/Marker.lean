import SqlTemplate.Error

/-!
Markers: the typed placeholders of a template.

A marker is a question mark with an optional type code right after it. The codes are
`s`, `d`, `f`, `a` and `#`; a question mark without one asks for a scalar, as `?s` does.
Any other character after the question mark belongs to the text that follows.
-/

set_option autoImplicit false

namespace SqlTemplate

/-- What a placeholder asks for. -/
inductive Marker where
  /-- One scalar, written as a literal: `?` or `?s`. -/
  | scalar
  /-- An integer: `?d`. -/
  | integer
  /-- A floating-point number: `?f`. -/
  | float
  /-- A list of literals, or of named literals: `?a`. -/
  | array
  /-- One identifier or a list of them: `?#`. -/
  | identifier
  deriving DecidableEq, Repr

namespace Marker

/-- The marker that a type code selects. -/
def ofChar? (code : Char) : Option Marker :=
  if code = 's' then some .scalar
  else if code = 'd' then some .integer
  else if code = 'f' then some .float
  else if code = 'a' then some .array
  else if code = '#' then some .identifier
  else none

/-- The marker for the optional code after a question mark. -/
def ofCode : Option Char → Except Error Marker
  | none => .ok .scalar
  | some code =>
    match ofChar? code with
    | some marker => .ok marker
    | none => .error (.unsupportedMarker code)

/-- The code that selects a marker. -/
def code : Marker → Char
  | scalar => 's'
  | integer => 'd'
  | float => 'f'
  | array => 'a'
  | identifier => '#'

/-- The marker as a template spells it, with its code written out. -/
def text (marker : Marker) : String :=
  String.ofList ['?', marker.code]

/-- A marker is selected by its own code. -/
@[simp] theorem ofChar?_code (marker : Marker) : ofChar? marker.code = some marker := by
  cases marker <;> rfl

end Marker

end SqlTemplate
