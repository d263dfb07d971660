import SqlTemplate.Error
import SqlTemplate.Json.Reader

/-!
Arguments on a command line.

An argument is JSON if it reads as JSON, and text otherwise; the text `@skip` is the skip sentinel.
All arguments together may be given as one JSON array, in which the string `@skip` is the sentinel.
Inside an array or an object it is a string like any other.
-/

set_option autoImplicit false

namespace SqlTemplate.CommandLine

/-- The text that stands for the skip sentinel. -/
def skipText : String := "@skip"

/-- The value of one argument. -/
def argumentValue (argument : String) : Value :=
  if argument = skipText then .skip
  else (Json.readValue? argument).getD (.text argument)

/-- An item of the array of all arguments. -/
def itemValue : Value → Value
  | .text content => if content = skipText then .skip else .text content
  | value => value

/-- The values of all arguments in one JSON array. -/
def argumentValues (array : String) : Except Error (List Value) :=
  match Json.readValue? array with
  | some (.sequence items) => .ok (items.map itemValue)
  | some _ => .error (.json "expected an array")
  | none => .error (.json "malformed text")

end SqlTemplate.CommandLine
