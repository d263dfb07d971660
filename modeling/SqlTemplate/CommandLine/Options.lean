import SqlTemplate.Settings

/-!
Reading a command line.

Arguments are read from left to right. An option with a value takes the rest of its argument, after
an equals sign where there is one, or the next argument; a separate value does not start with a
hyphen, except for a negative number after `--arg`. Options with one letter may be grouped. After
`--` nothing is an option or a command any more. The first argument that is no option is the
template, or the name of a command; a command takes over the arguments after it. What cannot be
read is a usage error; a request for the version or for help is answered where it stands.
-/

set_option autoImplicit false

namespace SqlTemplate.CommandLine

/-- Why reading a command line ends early. -/
inductive Stop where
  | usage (reason : String)
  | version
  | help
  deriving DecidableEq, Repr

/-- The options that take a value. -/
inductive ValueOption where
  | argument
  | argumentsJson
  | escaping
  | elision
  | config
  deriving DecidableEq, Repr

/-- The options that take none. -/
inductive Flag where
  | strict
  | verbose
  | version
  | help
  deriving DecidableEq, Repr

/-- An option. -/
inductive OptionName where
  | value (option : ValueOption)
  | flag (flag : Flag)
  deriving DecidableEq, Repr

/-- The option of a long name. -/
def OptionName.ofLong? (name : String) : Option OptionName :=
  if name = "arg" then some (.value .argument)
  else if name = "args-json" then some (.value .argumentsJson)
  else if name = "escaping" then some (.value .escaping)
  else if name = "elision" then some (.value .elision)
  else if name = "config" then some (.value .config)
  else if name = "strict" then some (.flag .strict)
  else if name = "verbose" then some (.flag .verbose)
  else if name = "version" then some (.flag .version)
  else if name = "help" then some (.flag .help)
  else none

/-- The option of a letter. -/
def OptionName.ofLetter? (letter : Char) : Option OptionName :=
  if letter = 'a' then some (.value .argument)
  else if letter = 'c' then some (.value .config)
  else if letter = 'v' then some (.flag .verbose)
  else if letter = 'V' then some (.flag .version)
  else if letter = 'h' then some (.flag .help)
  else none

/-- What the options and the template of a command line say. -/
structure Given where
  template : Option String := none
  /-- The arguments, in order. -/
  arguments : List String := []
  argumentsJson : Option String := none
  escaping : Option EscapingMode := none
  elision : Option ElisionMode := none
  config : Option String := none
  strict : Bool := false
  verbose : Bool := false
  deriving Repr

/-- What a command line asks for. -/
inductive Command where
  /-- Compile the template, if there is one. -/
  | compile
  | explain (template : String)
  | markers
  deriving DecidableEq, Repr

/-! ## Options -/

/-- An option was given before. -/
def Stop.repeated : Stop :=
  .usage "an option cannot be used multiple times"

/-- An option or a command lacks a value. -/
def Stop.missing : Stop :=
  .usage "a value is required"

/-- An argument fits nowhere. -/
def Stop.unexpected (argument : String) : Stop :=
  .usage ("unexpected argument '" ++ argument ++ "'")

/-- A mode, by its name. -/
def modeOfName {α : Type} (ofName : String → Except Error α) (name : String) : Except Stop α :=
  match ofName name with
  | .ok mode => .ok mode
  | .error error => .error (.usage error.message)

namespace Given

/-- Give an option its value. -/
def setValue (given : Given) (option : ValueOption) (value : String) : Except Stop Given :=
  match option with
  | .argument => .ok { given with arguments := given.arguments ++ [value] }
  | .argumentsJson =>
    if given.argumentsJson.isSome then .error .repeated
    else .ok { given with argumentsJson := some value }
  | .escaping =>
    if given.escaping.isSome then .error .repeated
    else
      (modeOfName EscapingMode.ofName value).map fun mode => { given with escaping := some mode }
  | .elision =>
    if given.elision.isSome then .error .repeated
    else (modeOfName ElisionMode.ofName value).map fun mode => { given with elision := some mode }
  | .config =>
    if given.config.isSome then .error .repeated
    else if value = "" then .error .missing
    else .ok { given with config := some value }

/-- Give an option that takes no value. -/
def setFlag (given : Given) (flag : Flag) : Except Stop Given :=
  match flag with
  | .strict => if given.strict then .error .repeated else .ok { given with strict := true }
  | .verbose => if given.verbose then .error .repeated else .ok { given with verbose := true }
  | .version => .error .version
  | .help => .error .help

/-- Give the template. -/
def setTemplate (given : Given) (template : String) : Except Stop Given :=
  if given.template.isSome then .error (.unexpected template)
  else .ok { given with template := some template }

end Given

/-- Options read so far, and the option that waits for a value in the next argument. -/
abbrev Progress := Given × Option ValueOption

/-- An argument that starts with two hyphens, without them. -/
def readLong (given : Given) (text : List Char) : Except Stop Progress :=
  let name := String.ofList (text.takeWhile (· != '='))
  match OptionName.ofLong? name, text.dropWhile (· != '=') with
  | some (.value option), [] => .ok (given, some option)
  | some (.value option), _ :: value =>
    (given.setValue option (String.ofList value)).map fun given => (given, none)
  | some (.flag flag), [] => (given.setFlag flag).map fun given => (given, none)
  | some (.flag _), _ :: _ => .error (.unexpected name)
  | none, _ => .error (.unexpected name)

/-- An argument that starts with one hyphen, without it: a group of letters. -/
def readLetters (given : Given) : List Char → Except Stop Progress
  | [] => .ok (given, none)
  | letter :: rest =>
    match OptionName.ofLetter? letter with
    | none => .error (.unexpected (String.ofList ['-', letter]))
    | some (.flag flag) => do readLetters (← given.setFlag flag) rest
    | some (.value option) =>
      match rest with
      | [] => .ok (given, some option)
      | '=' :: value =>
        (given.setValue option (String.ofList value)).map fun given => (given, none)
      | value => (given.setValue option (String.ofList value)).map fun given => (given, none)

/-- Whether an argument looks like an option. A single hyphen does not. -/
def looksLikeOption : List Char → Bool
  | '-' :: _ :: _ => true
  | _ => false

/-- Digits with at most one point and at most one exponent letter. The point is not first and comes
before the letter, and the letter is neither first nor last. -/
def isNumberText (text : List Char) : Bool :=
  let isLetter (c : Char) := c == 'e' || c == 'E'
  let mantissa := text.takeWhile fun c => !isLetter c
  let power := text.dropWhile fun c => !isLetter c
  let afterPoint := mantissa.dropWhile Char.isDigit
  let mantissaFits :=
    match afterPoint with
    | [] => true
    | c :: rest => c == '.' && mantissa.head? != some '.' && rest.all Char.isDigit
  let powerFits :=
    match power with
    | [] => true
    | _ :: digits => mantissa != [] && digits != [] && digits.all Char.isDigit
  mantissaFits && powerFits

/-- Whether an option takes the next argument as its value. -/
def takesNext (option : ValueOption) (argument : List Char) : Bool :=
  match argument with
  | '-' :: rest@(_ :: _) => option == .argument && isNumberText rest
  | _ => true

/-! ## Commands -/

/-- The arguments of `explain`: one template. -/
def readExplain (optionsEnded : Bool) (template : Option String) :
    List String → Except Stop Command
  | [] =>
    match template with
    | some template => .ok (.explain template)
    | none => .error .missing
  | argument :: rest =>
    if !optionsEnded && argument == "--" then readExplain true template rest
    else if !optionsEnded && looksLikeOption argument.toList then
      .error (if argument = "-h" ∨ argument = "--help" then .help else .unexpected argument)
    else if template.isSome then .error (.unexpected argument)
    else readExplain optionsEnded (some argument) rest

/-- The arguments of `markers`: none. -/
def readMarkers : List String → Except Stop Command
  | [] => .ok .markers
  | argument :: rest =>
    if argument = "-h" ∨ argument = "--help" then .error .help
    else if argument = "--" ∧ rest = [] then .ok .markers
    else .error (.unexpected argument)

/-- The command of a name, with the arguments after it. -/
def readCommand? (name : String) (rest : List String) : Option (Except Stop Command) :=
  if name = "explain" then some (readExplain false none rest)
  else if name = "markers" then some (readMarkers rest)
  else if name = "help" then some (.error .help)
  else none

/-! ## Whole command lines -/

/-- Arguments after `--`. -/
def readPositional (given : Given) (arguments : List String) : Except Stop Given :=
  arguments.foldlM Given.setTemplate given

/-- All arguments. -/
def readArguments : Progress → List String → Except Stop (Given × Command)
  | (given, none), [] => .ok (given, .compile)
  | (_, some _), [] => .error .missing
  | (given, some option), argument :: rest =>
    if takesNext option argument.toList then do
      readArguments (← given.setValue option argument, none) rest
    else .error .missing
  | (given, none), argument :: rest =>
    match argument.toList with
    | ['-', '-'] => (readPositional given rest).map fun given => (given, .compile)
    | '-' :: '-' :: text => do readArguments (← readLong given text) rest
    | '-' :: text@(_ :: _) => do readArguments (← readLetters given text) rest
    | _ =>
      match readCommand? argument rest with
      | some command => command.map fun command => (given, command)
      | none => do readArguments (← given.setTemplate argument, none) rest

/-- What must hold of all options together. The path of the settings may come from the
environment. -/
def complete (configDefault : Option String) (given : Given) : Except Stop Given :=
  if given.arguments ≠ [] ∧ given.argumentsJson.isSome then
    .error (.usage "'--arg' cannot be used with '--args-json'")
  else
    match given.config, configDefault with
    | some _, _ => .ok given
    | none, some "" => .error .missing
    | none, path => .ok { given with config := path }

/-- Read a command line. -/
def parse (configDefault : Option String) (arguments : List String) :
    Except Stop (Given × Command) := do
  let (given, command) ← readArguments ({}, none) arguments
  return (← complete configDefault given, command)

end SqlTemplate.CommandLine
