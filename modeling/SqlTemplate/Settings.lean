import SqlTemplate.Compile
import SqlTemplate.Toml.Reader

/-!
Settings: what a file may say about compiling.

The settings are the table `compiler` of a TOML document, with the keys `escaping`, `elision` and
`strict_arguments`. All keys are optional, and other keys in this table are errors; what else the
document holds does not matter. Instead of a table the settings may be an array that gives the
values in this order. A mode may also be given as a table of one entry, named for the mode and
holding an empty array or table.
-/

set_option autoImplicit false

namespace SqlTemplate

/-- The settings of compilation. -/
structure Settings where
  escaping : EscapingMode := .mysql
  elision : ElisionMode := .structural
  strictArguments : Bool := false
  deriving DecidableEq, Repr, Inhabited

namespace Settings

/-- The switches of compilation. -/
def options (settings : Settings) : Options :=
  { elision := settings.elision, strict := settings.strictArguments }

/-- The SQL of a template text and its arguments under the settings. -/
def compile (settings : Settings) (source : String) (arguments : List Value) :
    Except Error String :=
  SqlTemplate.compile settings.escaping.escaper settings.options source arguments

/-! ## Reading settings -/

/-- Whether a value is an empty array or table. -/
def isEmptyContainer : Toml → Bool
  | .array [] => true
  | .table _ [] => true
  | _ => false

/-- The name that a value gives. -/
def nameOf? : Toml → Option String
  | .string name => some name
  | .table _ [(name, content)] => if isEmptyContainer content then some name else none
  | _ => none

/-- A mode, by its name. -/
def mode? {α : Type} (ofName : String → Except Error α) (value : Toml) : Option α :=
  (nameOf? value).bind fun name => (ofName name).toOption

/-- A truth value. -/
def boolean? : Toml → Option Bool
  | .boolean truth => some truth
  | _ => none

/-- Settings with one of them changed. -/
def set? (settings : Settings) (key : String) (value : Toml) : Option Settings :=
  if key = "escaping" then
    (mode? EscapingMode.ofName value).map fun escaping => { settings with escaping }
  else if key = "elision" then
    (mode? ElisionMode.ofName value).map fun elision => { settings with elision }
  else if key = "strict_arguments" then
    (boolean? value).map fun strictArguments => { settings with strictArguments }
  else none

/-- The keys of the settings, in order. -/
def keys : List String := ["escaping", "elision", "strict_arguments"]

/-- Settings from their entries. -/
def ofEntries? (entries : Toml.Entries) : Option Settings :=
  entries.foldlM (fun settings (key, value) => settings.set? key value) {}

/-- Settings from the value of `compiler`. -/
def ofCompiler? : Toml → Option Settings
  | .table _ entries => ofEntries? entries
  | .array items => ofEntries? (keys.zip items)
  | .tables last earlier =>
    ofEntries? (keys.zip ((earlier.reverse ++ [last]).map (Toml.table .header)))
  | _ => none

/-- Settings from the text of a document. -/
def parse (document : String) : Except Error Settings :=
  match Toml.parse? document with
  | none => .error (.settings "malformed TOML document")
  | some entries =>
    match entries.lookup "compiler" with
    | none => .ok {}
    | some value =>
      match ofCompiler? value with
      | some settings => .ok settings
      | none => .error (.settings "invalid value for key `compiler`")

end Settings

end SqlTemplate
