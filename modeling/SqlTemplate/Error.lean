/-!
What can go wrong between a template and its SQL, and the text that reports it.

Every failure of the library is one value of `Error`: a cause with the facts that its report needs.
The wording lives in `Error.message` alone, so that a caller can match on causes and never on text.
-/

set_option autoImplicit false

namespace SqlTemplate

/-- The causes of failure. Kinds of values and marker texts are carried as they are reported. -/
inductive Error where
  /-- A placeholder asked for a type that does not exist. -/
  | unsupportedMarker (code : Char)
  /-- A value that has no SQL literal stood where one is needed. -/
  | unquotable (found : String)
  /-- The shape of a value does not fit the marker that asked for it. -/
  | shapeMismatch (marker : String) (found : String)
  /-- Exact argument counts were asked for and the arguments ran out. -/
  | missingArgument (position : Nat)
  /-- Exact argument counts were asked for and arguments were left over. -/
  | tooManyArguments (expected : Nat) (supplied : Nat)
  /-- The template text could not be read. -/
  | malformedTemplate (position : Nat) (reason : String)
  /-- The settings could not be understood. -/
  | settings (reason : String)
  /-- Argument text that should have been JSON was not. -/
  | json (reason : String)
  /-- A file could not be read. -/
  | unreadable (reason : String)
  deriving DecidableEq, Repr

/-- The one-line report of a failure. -/
def Error.message : Error → String
  | .unsupportedMarker code => "Unsupported placeholder type: '?" ++ code.toString ++ "'"
  | .unquotable found => "Invalid data type for SQL value: " ++ found
  | .shapeMismatch marker found =>
    "Placeholder '" ++ marker ++ "' cannot format a value of kind '" ++ found ++ "'"
  | .missingArgument position => "No argument supplied for placeholder #" ++ toString position
  | .tooManyArguments expected supplied =>
    "Template has " ++ toString expected ++ " placeholder(s) but " ++ toString supplied
      ++ " argument(s) were supplied"
  | .malformedTemplate position reason =>
    "Parse error at position " ++ toString position ++ ": " ++ reason
  | .settings reason => "Configuration error: " ++ reason
  | .json reason => "JSON error: " ++ reason
  | .unreadable reason => "IO error: " ++ reason

end SqlTemplate
