import SqlTemplate.CommandLine.ArgumentText
import SqlTemplate.CommandLine.Listing
import SqlTemplate.CommandLine.Options
import SqlTemplate.CommandLine.Reports
import SqlTemplate.FileSystem

/-!
Running a command line.

A run is a function of the arguments, the environment and the files. It ends with an exit code and
the texts for both outputs. Compiling goes through three stages, and the first failure ends it: the
settings are loaded from one file and overridden by the options, the arguments are read, and the
template is compiled.
-/

set_option autoImplicit false

namespace SqlTemplate.CommandLine

/-- How a run ends: the exit code, what is printed, and what is reported. The reports are those of
the run itself; lines of a log, which carry the time, are not among them. -/
structure Outcome where
  code : UInt8
  output : String
  errors : String
  deriving DecidableEq, Repr

/-- The world that a run sees. -/
structure World where
  environment : Environment
  files : FileSystem
  /-- Whether output goes to a terminal. -/
  terminal : Bool

/-- Lines as text. -/
def textOfLines (lines : List String) : String :=
  String.join (lines.map (· ++ "\n"))

/-! ## Settings -/

/-- The settings file of a project, in the directory of the run. -/
def projectFile : String := "qtpl.toml"

/-- The settings file of a user, in the directory of the user's settings. -/
def userFile (directory : String) : String :=
  joinPath (joinPath directory "qtpl") "config.toml"

/-- Where the user of a world keeps settings. -/
def World.userDirectory? (world : World) : Option String :=
  world.files.userDirectory? world.environment

/-- Where settings are looked for when no path is given, in order. -/
def defaultLocations (userDirectory : Option String) : List String :=
  projectFile :: userDirectory.toList.map userFile

/-- The one file that settings come from, if there is one: the given path, or the first of the
default locations that is a file. -/
def settingsFile? (world : World) (path : Option String) : Option String :=
  path <|> (defaultLocations world.userDirectory?).find? world.files.isFile

/-- The settings in a file. -/
def readSettings (files : FileSystem) (path : String) : Except Error Settings :=
  match files.readText path with
  | .ok content => Settings.parse content
  | .error failure => .error (.unreadable failure.message)

/-- The settings for a run: those of the one file, or the defaults. -/
def loadSettings (world : World) (path : Option String) : Except Error Settings :=
  match settingsFile? world path with
  | some path => readSettings world.files path
  | none => .ok {}

/-- Settings with what the options say in place of what the file says. -/
def Given.override (given : Given) (settings : Settings) : Settings :=
  { escaping := given.escaping.getD settings.escaping
    elision := given.elision.getD settings.elision
    strictArguments := given.strict || settings.strictArguments }

/-! ## Stages -/

/-- The values of the arguments. -/
def Given.values (given : Given) : Except Error (List Value) :=
  match given.argumentsJson with
  | some array => argumentValues array
  | none => .ok (given.arguments.map argumentValue)

/-- A failure with its cause. What a reader or the system reports is a cause of its own, and is
told again after the failure that it led to. -/
def failureText : Error → String
  | .json reason => (Error.json reason).message ++ ": " ++ reason
  | .unreadable reason => (Error.unreadable reason).message ++ ": " ++ reason
  | error => error.message

/-- A failure of a stage. -/
def stageFailure (stage : String) (error : Error) : String :=
  stage ++ ": " ++ failureText error

/-- The line of one argument in the listing. -/
def argumentLine (painter : Painter) (n : Nat) (value : Value) : String :=
  "  " ++ painter.paint .name ("#" ++ toString n) ++ " = " ++ listValue value

/-- The listing of a template and its arguments. -/
def listing (painter : Painter) (template : String) (values : List Value) : List String :=
  painter.templateLine template
    :: values.mapIdx fun i value => argumentLine painter (i + 1) value

/-- The settings and values that a template is compiled with. -/
def prepare (world : World) (given : Given) : Except String (Settings × List Value) := do
  let settings ← (loadSettings world given.config).mapError (stageFailure "loading config")
  let values ← given.values.mapError (stageFailure "--args-json must be a JSON array")
  return (given.override settings, values)

/-- The end of a run that failed, after what it has listed. -/
def failed (painter : Painter) (listed : String) (reason : String) : Outcome :=
  ⟨1, "", listed ++ textOfLines [painter.paint .failure "Error:" ++ " " ++ reason]⟩

/-- Compile a template. -/
def runCompile (world : World) (painter : Painter) (given : Given) (template : String) : Outcome :=
  match prepare world given with
  | .error reason => failed painter "" reason
  | .ok (settings, values) =>
    let listed := if given.verbose then textOfLines (listing painter template values) else ""
    match settings.compile template values with
    | .ok sql => ⟨0, textOfLines [sql], listed⟩
    | .error error => failed painter listed (failureText error)

/-- Run a command line. -/
def run (world : World) (arguments : List String) : Outcome :=
  let painter : Painter := ⟨usesColour world.environment world.terminal⟩
  let printed (lines : List String) : Outcome := ⟨0, textOfLines lines, ""⟩
  match parse (world.environment "QTPL_CONFIG") arguments with
  | .error .version => printed [versionLine]
  | .error .help => printed helpLines
  | .error (.usage reason) => ⟨2, "", textOfLines ["error: " ++ reason]⟩
  | .ok (_, .explain template) => printed (painter.explain template)
  | .ok (_, .markers) => printed painter.markers
  | .ok (given, .compile) =>
    match given.template with
    | some template => runCompile world painter given template
    | none => printed painter.banner

end SqlTemplate.CommandLine
