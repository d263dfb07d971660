import SqlTemplate.CommandLine.Run

/-!
The program: it collects what a run depends on, runs, and prints.

A run looks only at the settings file that is named, or else at the default locations, so these are
looked up before it starts.
-/

set_option autoImplicit false

open SqlTemplate CommandLine

/-- The variables of the environment that a run looks at. -/
def relevantVariables : List String :=
  ["QTPL_CONFIG", "XDG_CONFIG_HOME", "HOME", "CLICOLOR_FORCE", "NO_COLOR", "CLICOLOR"]

/-- The paths that a run may look at. -/
def relevantPaths (environment : Environment) (userDirectory : Option String)
    (arguments : List String) : List String :=
  match parse (environment "QTPL_CONFIG") arguments with
  | .ok (⟨_, _, _, _, _, some path, _, _⟩, .compile) => [path]
  | .ok (_, .compile) => defaultLocations userDirectory
  | _ => []

/-- Why the system did not read a path. -/
def readFailure : IO.Error → ReadFailure
  | .noFileOrDirectory .. => .notFound
  | .permissionDenied _ number reason | .inappropriateType _ number reason
  | .invalidArgument _ number reason | .resourceExhausted _ number reason
  | .hardwareFault number reason | .otherError number reason =>
    .other (reason ++ " (os error " ++ toString number ++ ")")
  | error => .other (toString error)

/-- Whether a path names a regular file, by what the system says about it and not by reading it. -/
def isRegularFile (path : String) : IO Bool := do
  try
    return (← (IO.FS.DirEntry.root ⟨⟨path⟩, ""⟩).metadata).type == .file
  catch _ => return false

/-- What reading a path gives. -/
def readBytes (path : String) : IO (Except ReadFailure ByteArray) := do
  try
    return .ok (← IO.FS.withFile ⟨path⟩ .read (·.readBinToEnd))
  catch error => return .error (readFailure error)

/-- What a path names. -/
def pathStatus (path : String) : IO PathStatus :=
  return ⟨← isRegularFile path, ← readBytes path⟩

/-! ## The account -/

/-- The lines of a file of the system, split at a separator; none if it cannot be read. -/
def systemLines (path separator : String) : IO (List (List String)) := do
  let bytes := (← readBytes path).toOption.getD .empty
  return (((String.fromUTF8? bytes).getD "").splitOn "\n").map (·.splitOn separator)

/-- The number of the user, in what the system says about the program. -/
def userNumber? (status : List (List String)) : Option String :=
  status.findSome? fun
    | "Uid:" :: number :: _ => some number
    | _ => none

/-- The home directory of a user, in the list of accounts. -/
def accountHome? (user : String) (accounts : List (List String)) : Option String :=
  accounts.findSome? fun
    | [_, _, number, _, _, home, _] => if number = user then some home else none
    | _ => none

def main (arguments : List String) : IO UInt32 := do
  let bindings ← relevantVariables.mapM fun name => return (name, ← IO.getEnv name)
  let environment : Environment := fun name => (bindings.lookup name).join
  let user := userNumber? (← systemLines "/proc/self/status" "\t")
  let accounts ← systemLines "/etc/passwd" ":"
  let userDirectory? := desktopDirectory? (user.bind (accountHome? · accounts))
  let paths ← (relevantPaths environment (userDirectory? environment) arguments).mapM fun path =>
    return (path, ← pathStatus path)
  let status : String → PathStatus := fun path =>
    (paths.lookup path).getD (.unreachable .notFound)
  let terminal ← (← IO.getStdout).isTty
  let outcome := run ⟨environment, ⟨status, userDirectory?⟩, terminal⟩ arguments
  IO.eprint outcome.errors
  IO.print outcome.output
  return outcome.code.toUInt32
