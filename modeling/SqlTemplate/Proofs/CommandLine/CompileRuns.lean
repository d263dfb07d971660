import SqlTemplate.CommandLine.Run
import SqlTemplate.Proofs.CommandLine.VerboseFlag
import Mathlib.Data.List.Basic

/-!
What a run that compiles a template prints.

The three stages either all go well, and then the run prints the SQL of the library (`Compiles`), or
one of them is the first to fail, and then its reason is reported and nothing is printed (`Fails`).
Both are said by the stages alone, without running. `runCompile` is taken apart into the two once;
that `--verbose` leaves the outcome alone follows, as neither of them looks at the flag. Main
statement: `compile_run_all_or_nothing`.
-/

set_option autoImplicit false

namespace SqlTemplate.CommandLine

variable {world : World} {given : Given} {template sql reason listed : String}

/-! ## Stages -/

/-- How a run in a world shows its texts. -/
def World.painter (world : World) : Painter := ⟨usesColour world.environment world.terminal⟩

/-- All stages go well: the settings load, the arguments are read, and the template compiles. -/
def Compiles (world : World) (given : Given) (template sql : String) : Prop :=
  ∃ settings values, loadSettings world given.config = .ok settings ∧ given.values = .ok values
    ∧ (given.override settings).compile template values = .ok sql

/-- The listing of a verbose run, which stands before what is reported of the compilation. -/
def Given.listingText (given : Given) (painter : Painter) (template : String)
    (values : List Value) : String :=
  if given.verbose then textOfLines (listing painter template values) else ""

/-- One stage fails, after those before it went well: what is listed until then, and the reason that
is reported. -/
inductive Fails (world : World) (painter : Painter) (given : Given) (template : String) :
    String → String → Prop where
  | settings {error : Error} (h : loadSettings world given.config = .error error) :
    Fails world painter given template "" (stageFailure "loading config" error)
  | arguments {settings : Settings} {error : Error}
    (hsettings : loadSettings world given.config = .ok settings)
    (h : given.values = .error error) :
    Fails world painter given template "" (stageFailure "--args-json must be a JSON array" error)
  | compilation {settings : Settings} {values : List Value} {error : Error}
    (hsettings : loadSettings world given.config = .ok settings)
    (hvalues : given.values = .ok values)
    (h : (given.override settings).compile template values = .error error) :
    Fails world painter given template (given.listingText painter template values)
      (failureText error)

/-- The line that reports a reason. -/
def errorLine (painter : Painter) (reason : String) : String :=
  painter.paint .failure "Error:" ++ " " ++ reason ++ "\n"

theorem textOfLines_singleton (line : String) : textOfLines [line] = line ++ "\n" := by
  simp [textOfLines]

variable {painter : Painter}

/-- Settings and arguments that can be read are what a run is prepared with. -/
theorem prepare_eq_ok {settings : Settings} {values : List Value}
    (hsettings : loadSettings world given.config = .ok settings)
    (hvalues : given.values = .ok values) :
    prepare world given = .ok (given.override settings, values) := by
  rw [prepare, hsettings, hvalues]
  rfl

/-- If all stages go well, the SQL is printed. -/
theorem runCompile_of_compiles (painter : Painter) (h : Compiles world given template sql) :
    (runCompile world painter given template).code = 0
      ∧ (runCompile world painter given template).output = sql ++ "\n" := by
  obtain ⟨settings, values, hsettings, hvalues, hsql⟩ := h
  rw [runCompile, prepare_eq_ok hsettings hvalues]
  dsimp only
  rw [hsql]
  exact ⟨rfl, textOfLines_singleton sql⟩

theorem failed_eq (painter : Painter) (listed reason : String) :
    failed painter listed reason = ⟨1, "", listed ++ errorLine painter reason⟩ := by
  rw [failed, textOfLines_singleton, errorLine]

/-- If a stage fails, its reason is reported and nothing is printed. -/
theorem runCompile_of_fails (h : Fails world painter given template listed reason) :
    runCompile world painter given template = ⟨1, "", listed ++ errorLine painter reason⟩ := by
  rw [← failed_eq]
  cases h with
  | settings h =>
    rw [runCompile, prepare, h]
    rfl
  | arguments hsettings h =>
    rw [runCompile, prepare, hsettings, h]
    rfl
  | compilation hsettings hvalues h =>
    rw [runCompile, prepare_eq_ok hsettings hvalues]
    dsimp only
    rw [h]
    rfl

/-- Either all stages go well, or one is the first that does not. -/
theorem compiles_or_fails (world : World) (painter : Painter) (given : Given) (template : String) :
    (∃ sql, Compiles world given template sql)
      ∨ ∃ listed reason, Fails world painter given template listed reason := by
  cases hsettings : loadSettings world given.config with
  | error error => exact Or.inr ⟨_, _, .settings hsettings⟩
  | ok settings =>
    cases hvalues : given.values with
    | error error => exact Or.inr ⟨_, _, .arguments hsettings hvalues⟩
    | ok values =>
      cases hsql : (given.override settings).compile template values with
      | error error => exact Or.inr ⟨_, _, .compilation hsettings hvalues hsql⟩
      | ok sql => exact Or.inl ⟨sql, settings, values, hsettings, hvalues, hsql⟩

/-! ## The flag -/

/-- No stage looks at the flag. -/
theorem compiles_loud (h : Compiles world given template sql) :
    Compiles world given.loud template sql := h

/-- The same stage fails with the flag. -/
theorem exists_fails_loud (h : Fails world painter given template listed reason) :
    ∃ listed, Fails world painter given.loud template listed reason := by
  cases h with
  | settings h => exact ⟨_, .settings h⟩
  | arguments hsettings h => exact ⟨_, .arguments hsettings h⟩
  | compilation hsettings hvalues h => exact ⟨_, .compilation hsettings hvalues h⟩

/-- The flag changes neither the code nor the output. -/
theorem runCompile_loud (world : World) (painter : Painter) (given : Given) (template : String) :
    (runCompile world painter given.loud template).code
        = (runCompile world painter given template).code
      ∧ (runCompile world painter given.loud template).output
        = (runCompile world painter given template).output := by
  rcases compiles_or_fails world painter given template with ⟨sql, h⟩ | ⟨listed, reason, h⟩
  · obtain ⟨hcode, houtput⟩ := runCompile_of_compiles painter h
    obtain ⟨hcode', houtput'⟩ := runCompile_of_compiles painter (compiles_loud h)
    exact ⟨hcode'.trans hcode.symm, houtput'.trans houtput.symm⟩
  · obtain ⟨listed', h'⟩ := exists_fails_loud h
    rw [runCompile_of_fails h, runCompile_of_fails h']
    exact ⟨rfl, rfl⟩

/-! ## Command lines -/

/-- A command line with a template and no other command compiles the template. -/
theorem run_eq_runCompile {arguments : List String}
    (h : parse (world.environment "QTPL_CONFIG") arguments = .ok (given, .compile))
    (htemplate : given.template = some template) :
    run world arguments = runCompile world world.painter given template := by
  rw [run, h]
  dsimp only
  rw [htemplate]
  rfl

/-- **A command line that compiles a template prints the library's SQL or nothing.** It exits with 0
if and only if every stage goes well, and then its output is the SQL and a line end. Else it exits
with 1, its output is empty, and the first stage that fails is reported. `--verbose`, put in at any
place where the command line can still be read, changes neither the code nor the output; in front it
can be put if it is not given. -/
theorem compile_run_all_or_nothing {arguments : List String}
    (h : parse (world.environment "QTPL_CONFIG") arguments = .ok (given, .compile))
    (htemplate : given.template = some template) :
    ((run world arguments).code = 0 ↔ ∃ sql, Compiles world given template sql)
      ∧ (∀ sql, Compiles world given template sql → (run world arguments).output = sql ++ "\n")
      ∧ ((run world arguments).code ≠ 0 →
        (run world arguments).code = 1 ∧ (run world arguments).output = ""
          ∧ ∃ listed reason, Fails world world.painter given template listed reason
            ∧ (run world arguments).errors = listed ++ errorLine world.painter reason)
      ∧ (∀ front back read, arguments = front ++ back →
        parse (world.environment "QTPL_CONFIG") (front ++ verboseArgument :: back) = .ok read →
          (run world (front ++ verboseArgument :: back)).code = (run world arguments).code
            ∧ (run world (front ++ verboseArgument :: back)).output = (run world arguments).output)
      ∧ (given.verbose = false → ∃ read,
        parse (world.environment "QTPL_CONFIG") (verboseArgument :: arguments) = .ok read) := by
  have hrun := run_eq_runCompile h htemplate
  refine ⟨?succeeds, ?whole, ?nothing, ?verbose, fun hquiet => ⟨_, parse_cons h hquiet⟩⟩
  case succeeds =>
    constructor
    · intro hcode
      refine (compiles_or_fails world world.painter given template).resolve_right ?_
      rintro ⟨listed, reason, hfails⟩
      rw [hrun, runCompile_of_fails hfails] at hcode
      exact absurd hcode (show (1 : UInt8) ≠ 0 by decide)
    · rintro ⟨sql, hcompiles⟩
      rw [hrun]
      exact (runCompile_of_compiles world.painter hcompiles).1
  case whole =>
    intro sql hcompiles
    rw [hrun]
    exact (runCompile_of_compiles world.painter hcompiles).2
  case nothing =>
    intro hcode
    rcases compiles_or_fails world world.painter given template with ⟨sql, hcompiles⟩ | hfails
    · rw [hrun] at hcode
      exact absurd (runCompile_of_compiles world.painter hcompiles).1 hcode
    · obtain ⟨listed, reason, hfails⟩ := hfails
      rw [hrun, runCompile_of_fails hfails]
      exact ⟨rfl, rfl, listed, reason, hfails, rfl⟩
  case verbose =>
    -- What is read with the flag put in is what was read, with the flag set.
    intro front back read hsplit hread
    rw [hsplit] at h
    have hne : given.template ≠ none := by simp [htemplate]
    rw [parse_insert h hne hread] at hread
    rw [run_eq_runCompile hread htemplate, hrun]
    exact runCompile_loud world world.painter given template

/-- A world without files and without an environment. -/
def bareWorld : World :=
  ⟨fun _ => none, ⟨fun _ => .unreachable .notFound, fun _ => none⟩, false⟩

/-- A world with settings files for the project and for a user. The variable for the home directory
is empty, so it is that of the account. -/
def settingsWorld (project user : PathStatus) : World :=
  { environment := fun name => if name = "HOME" then some "" else none
    files :=
      { status := fun path =>
          if path = "qtpl.toml" then project
          else if path = "/home/user/.config/qtpl/config.toml" then user
          else .unreachable .notFound
        userDirectory? := desktopDirectory? (some "/home/user") }
    terminal := false }

/-- One argument under exact counts. -/
def strictSeven : Given := { template := some "a = ?d", strict := true, arguments := ["7"] }

/-- A world where the file of the project gives no settings. -/
def misreadWorld : World :=
  settingsWorld (.file "compiler = 1".toUTF8) (.unreachable .notFound)

/-- An integer is put into a template, with the flag at the end too; without an argument, exact
counts make the same template fail. So does a settings file that gives none, and an array of
arguments that is cut off. -/
theorem compile_run_all_or_nothing_strict :
    (run bareWorld ["--strict", "a = ?d", "--arg", "7"]).output = "a = 7\n"
      ∧ (run bareWorld ["--strict", "a = ?d", "--arg", "7", "--verbose"]).output = "a = 7\n"
      ∧ (run bareWorld ["--strict", "a = ?d"]).output = ""
      ∧ (run misreadWorld ["a = ?d", "--arg", "7"]).code = 1
      ∧ (run misreadWorld ["a = ?d", "--arg", "7"]).output = ""
      ∧ (run bareWorld ["a = ?d", "--args-json", "[7"]).code = 1
      ∧ (run bareWorld ["a = ?d", "--args-json", "[7"]).output = "" := by
  -- What each of the command lines asks for.
  have hseven : parse (bareWorld.environment "QTPL_CONFIG") ["--strict", "a = ?d", "--arg", "7"]
      = .ok (strictSeven, .compile) := rfl
  have hloud : parse (bareWorld.environment "QTPL_CONFIG")
      (["--strict", "a = ?d", "--arg", "7"] ++ [verboseArgument])
      = .ok (strictSeven.loud, .compile) := rfl
  have hnone : parse (bareWorld.environment "QTPL_CONFIG") ["--strict", "a = ?d"]
      = .ok ({ template := some "a = ?d", strict := true }, .compile) := rfl
  have hplain : parse (misreadWorld.environment "QTPL_CONFIG") ["a = ?d", "--arg", "7"]
      = .ok ({ template := some "a = ?d", arguments := ["7"] }, .compile) := rfl
  have harray : parse (bareWorld.environment "QTPL_CONFIG") ["a = ?d", "--args-json", "[7"]
      = .ok ({ template := some "a = ?d", argumentsJson := some "[7" }, .compile) := rfl
  have hcompiles : Compiles bareWorld strictSeven "a = ?d" "a = 7" :=
    ⟨{}, [.int 7], rfl, rfl, by decide +kernel⟩
  obtain ⟨-, hwhole, -, hverbose, -⟩ := compile_run_all_or_nothing hseven rfl
  obtain ⟨-, -, hnothing, -, -⟩ := compile_run_all_or_nothing hnone rfl
  obtain ⟨-, -, hmisread, -, -⟩ := compile_run_all_or_nothing hplain rfl
  obtain ⟨-, -, hcut, -, -⟩ := compile_run_all_or_nothing harray rfl
  have houtput : (run bareWorld ["--strict", "a = ?d", "--arg", "7"]).output = "a = 7\n" :=
    hwhole _ hcompiles
  have hcode : (run bareWorld ["--strict", "a = ?d"]).code ≠ 0 := by decide +kernel
  obtain ⟨hmisreadCode, hmisreadOutput, -⟩ := hmisread (by decide +kernel)
  obtain ⟨hcutCode, hcutOutput, -⟩ := hcut (by decide +kernel)
  exact ⟨houtput, (hverbose _ [] _ (by simp) hloud).2.trans houtput, (hnothing hcode).2.1,
    hmisreadCode, hmisreadOutput, hcutCode, hcutOutput⟩

end SqlTemplate.CommandLine
