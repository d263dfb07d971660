import SqlTemplate.CommandLine.Options
import SqlTemplate.Proofs.Results

/-!
Reading a command line with `--verbose` added to it.

The flag is stored and never looked at, but for a second one, which is a usage error. So reading
goes on behind the flag as it would without it. `Mirrors` says this of two results of reading: each
is the other one with the flag set, as long as the flag is not given again. The relation is kept by
sequencing, and all of reading is made of it. Main statements: a command line that is read with
`--verbose` put in anywhere is read as the one without, with the flag set (`parse_insert`); in front
the flag can be put wherever it is not given yet (`parse_cons`).
-/

set_option autoImplicit false

namespace SqlTemplate.CommandLine

/-- The same options, with the flag set. -/
def Given.loud (given : Given) : Given := { given with verbose := true }

@[simp] theorem Given.loud_config (given : Given) : given.loud.config = given.config := rfl

/-! ## Two results of reading -/

variable {α β : Type} {f : α → α} {g : β → β}

/-- What is read loudly is what is read quietly, with the flag set by `f`. A quiet result that has
the flag already is of a text that gives it, and says nothing about loud reading. -/
structure Mirrors (f : α → α) (quiet loud : Except Stop α) : Prop where
  quietly : ∀ a, loud = .ok a → ∃ b, quiet = .ok b ∧ a = f b
  loudly : ∀ b, quiet = .ok b → f b ≠ b → loud = .ok (f b)

namespace Mirrors

theorem ok (a : α) : Mirrors f (.ok a) (.ok (f a)) where
  quietly := fun _ h => ⟨a, rfl, (Except.ok.inj h).symm⟩
  loudly := fun _ h _ => by rw [Except.ok.inj h]

/-- Loud reading may fail where quiet reading fails, or where it comes upon the flag. -/
theorem error {quiet : Except Stop α} (h : ∀ a, quiet = .ok a → f a = a) (stop : Stop) :
    Mirrors f quiet (.error stop) where
  quietly := fun _ h => absurd h (by simp)
  loudly := fun a ha hne => absurd (h a ha) hne

/-- What differs by the change only is mirrored. -/
theorem of_map {quiet loud : Except Stop α} (h : loud = quiet.map f) : Mirrors f quiet loud := by
  rw [h]
  cases quiet with
  | error stop => exact error (by simp) stop
  | ok a => exact ok a

/-- Reading on keeps the relation, and where the flag was given it stays set. -/
theorem bind {quiet loud : Except Stop α} {next : α → Except Stop β} (hg : ∀ b, g (g b) = g b)
    (h : Mirrors f quiet loud) (hnext : ∀ a, Mirrors g (next a) (next (f a))) :
    Mirrors g (quiet >>= next) (loud >>= next) := by
  constructor
  · intro b hb
    obtain ⟨a, ha, hrest⟩ := exists_of_bind_eq_ok hb
    obtain ⟨a', ha', rfl⟩ := h.quietly a ha
    obtain ⟨b', hb', rfl⟩ := (hnext a').quietly b hrest
    rw [ha']
    exact ⟨b', hb', rfl⟩
  · intro b hb hne
    obtain ⟨a, ha, hrest⟩ := exists_of_bind_eq_ok hb
    -- If the flag is set behind the first part, it is set at the end, and there is nothing to show.
    by_cases hgiven : f a = a
    · have hself := hnext a
      rw [hgiven] at hself
      obtain ⟨b', -, rfl⟩ := hself.quietly b hrest
      exact absurd (hg b') hne
    · rw [h.loudly a ha hgiven]
      exact (hnext a).loudly b hrest hne

end Mirrors

/-- The flag set in the options of a pair. -/
def loudPair {γ : Type} (pair : Given × γ) : Given × γ := (pair.1.loud, pair.2)

/-- The flag is set once. -/
theorem loudPair_loudPair {γ : Type} (pair : Given × γ) :
    loudPair (loudPair pair) = loudPair pair := rfl

/-! ## Options -/

/-- Setting a value and setting the flag do not get in each other's way. -/
theorem Given.setValue_loud (given : Given) (option : ValueOption) (value : String) :
    given.loud.setValue option value = (given.setValue option value).map loud := by
  cases option with
  | argument => rfl
  -- All but the repeatable argument refuse a second value before they look at the first.
  | argumentsJson =>
    show (if given.argumentsJson.isSome then _ else _) = _
    rw [setValue]
    split <;> rfl
  | escaping =>
    show (if given.escaping.isSome then _ else _) = _
    rw [setValue]
    split
    · rfl
    · cases modeOfName EscapingMode.ofName value <;> rfl
  | elision =>
    show (if given.elision.isSome then _ else _) = _
    rw [setValue]
    split
    · rfl
    · cases modeOfName ElisionMode.ofName value <;> rfl
  | config =>
    show (if given.config.isSome then _ else _) = _
    rw [setValue]
    split
    · rfl
    split <;> rfl

theorem Given.setTemplate_loud (given : Given) (template : String) :
    given.loud.setTemplate template = (given.setTemplate template).map loud := by
  show (if given.template.isSome then _ else _) = _
  rw [setTemplate]
  split <;> rfl

/-- With the flag, setting another flag goes the same way, unless it is given twice. -/
theorem mirrors_setFlag (given : Given) (flag : Flag) :
    Mirrors Given.loud (given.setFlag flag) (given.loud.setFlag flag) := by
  cases flag with
  | strict =>
    apply Mirrors.of_map
    show (if given.strict then _ else _) = _
    rw [Given.setFlag]
    split <;> rfl
  | verbose =>
    -- A second flag is refused, and after a first one it stays set.
    refine Mirrors.error (fun a ha => ?_) .repeated
    rw [Given.setFlag] at ha
    split at ha
    · exact absurd ha (by simp)
    · rw [← Except.ok.inj ha]
      rfl
  | version => exact Mirrors.error (by simp [Given.setFlag]) .version
  | help => exact Mirrors.error (by simp [Given.setFlag]) .help

/-- A result that holds the options, with something that does not depend on them. -/
theorem Mirrors.pair {γ : Type} {quiet loud : Except Stop Given} (h : Mirrors Given.loud quiet loud)
    (c : γ) : Mirrors loudPair (quiet.map fun given => (given, c))
      (loud.map fun given => (given, c)) :=
  h.bind loudPair_loudPair fun given => Mirrors.ok (f := loudPair) (given, c)

/-- With the flag, setting a value goes the same way. -/
theorem mirrors_setValue (given : Given) (option : ValueOption) (value : String) :
    Mirrors Given.loud (given.setValue option value) (given.loud.setValue option value) :=
  .of_map (given.setValue_loud option value)

/-- With the flag, setting the template goes the same way. -/
theorem mirrors_setTemplate (given : Given) (template : String) :
    Mirrors Given.loud (given.setTemplate template) (given.loud.setTemplate template) :=
  .of_map (given.setTemplate_loud template)

/-! ## Single arguments -/

/-- With the flag, a long option is read the same way. -/
theorem mirrors_readLong (given : Given) (text : List Char) :
    Mirrors loudPair (readLong given text) (readLong given.loud text) := by
  rw [readLong, readLong]
  split
  · exact Mirrors.ok (f := loudPair) (given, some _)
  · exact (mirrors_setValue given _ _).pair none
  · exact (mirrors_setFlag given _).pair none
  · exact Mirrors.error (by simp) _
  · exact Mirrors.error (by simp) _

/-- With the flag, short options are read the same way. -/
theorem mirrors_readLetters (given : Given) (letters : List Char) :
    Mirrors loudPair (readLetters given letters) (readLetters given.loud letters) := by
  induction letters generalizing given with
  | nil => exact Mirrors.ok (f := loudPair) (given, none)
  | cons letter rest ih =>
    rw [readLetters, readLetters]
    split
    · exact Mirrors.error (by simp) _
    · exact (mirrors_setFlag given _).bind loudPair_loudPair ih
    · split
      · exact Mirrors.ok (f := loudPair) (given, some _)
      · exact (mirrors_setValue given _ _).pair none
      · exact (mirrors_setValue given _ _).pair none

/-- One argument that neither ends the options nor is a command. -/
def readNext (progress : Progress) (argument : String) : Except Stop Progress :=
  match progress with
  | (given, some option) =>
    if takesNext option argument.toList then
      (given.setValue option argument).map fun given => (given, none)
    else .error .missing
  | (given, none) =>
    match argument.toList with
    | '-' :: '-' :: text => readLong given text
    | '-' :: text@(_ :: _) => readLetters given text
    | _ => (given.setTemplate argument).map fun given => (given, none)

/-- With the flag, an argument is read the same way. -/
theorem mirrors_readNext (progress : Progress) (argument : String) :
    Mirrors loudPair (readNext progress argument) (readNext (loudPair progress) argument) := by
  obtain ⟨given, waiting⟩ := progress
  cases waiting with
  | some option =>
    rw [loudPair, readNext, readNext]
    split
    · exact (mirrors_setValue given option argument).pair none
    · exact Mirrors.error (by simp) _
  | none =>
    rw [loudPair, readNext, readNext]
    split
    · exact mirrors_readLong given _
    · exact mirrors_readLetters given _
    · exact (mirrors_setTemplate given argument).pair none

/-! ## All arguments -/

/-- Where nothing waits for a value and no command is named, the next argument is an option or the
template, and reading goes on behind it. -/
theorem readArguments_of_readCommand?_eq_none {argument : String} {rest : List String}
    (hend : argument.toList ≠ ['-', '-']) (hnone : readCommand? argument rest = none)
    (given : Given) :
    readArguments (given, none) (argument :: rest)
      = readNext (given, none) argument >>= (readArguments · rest) := by
  rw [readArguments, readNext, hnone]
  -- The steps of the two definitions split on the same characters, so each case is one of both.
  split
  · rename_i heq
    exact absurd heq hend
  · rename_i heq
    rw [heq]
    rfl
  · rename_i hsign heq
    rw [heq]
    split
    · rename_i hlong
      exact (hsign (List.cons.inj (List.cons.inj hlong).2).1).elim
    · rename_i hletters
      rw [(List.cons.inj hletters).2]
    · rename_i hother
      exact (hother _ _ rfl).elim
  · rename_i hlong hletters
    dsimp only
    split
    · rename_i heq
      exact (hlong _ heq).elim
    · rename_i heq
      exact (hletters _ _ heq).elim
    · cases given.setTemplate argument <;> rfl

/-- What an argument does to reading, whatever the options are so far: reading goes on behind it, or
the rest is positional, or a command takes the rest over. -/
theorem readArguments_cons_cases (waiting : Option ValueOption) (argument : String) :
    (∀ given rest, readArguments (given, waiting) (argument :: rest)
        = readNext (given, waiting) argument >>= (readArguments · rest))
      ∨ (∀ given rest, readArguments (given, waiting) (argument :: rest)
        = (readPositional given rest).map fun given => (given, .compile))
      ∨ ∀ rest, ∃ command, readCommand? argument rest = some command
        ∧ ∀ given, readArguments (given, waiting) (argument :: rest)
          = command.map fun command => (given, command) := by
  cases waiting with
  | some option =>
    left
    intro given rest
    rw [readArguments, readNext]
    split
    · cases given.setValue option argument <;> rfl
    · rfl
  | none =>
    -- The two dashes come first, then the names of commands, and what is left is an option or the
    -- template.
    by_cases hend : argument.toList = ['-', '-']
    · right
      left
      intro given rest
      rw [readArguments, hend]
      rfl
    by_cases hcommand : argument = "explain" ∨ argument = "markers" ∨ argument = "help"
    · right
      right
      intro rest
      rcases hcommand with rfl | rfl | rfl
      · exact ⟨_, rfl, fun _ => rfl⟩
      · exact ⟨_, rfl, fun _ => rfl⟩
      · exact ⟨_, rfl, fun _ => rfl⟩
    · left
      intro given rest
      rw [not_or, not_or] at hcommand
      have hnone : readCommand? argument rest = none := by
        rw [readCommand?, if_neg hcommand.1, if_neg hcommand.2.1, if_neg hcommand.2.2]
      exact readArguments_of_readCommand?_eq_none hend hnone given

/-- With the flag, what comes behind two dashes is read the same way. -/
theorem mirrors_readPositional (given : Given) (arguments : List String) :
    Mirrors Given.loud (readPositional given arguments) (readPositional given.loud arguments) := by
  induction arguments generalizing given with
  | nil => exact Mirrors.ok given
  | cons argument rest ih =>
    rw [readPositional, readPositional, List.foldlM_cons, List.foldlM_cons]
    exact (mirrors_setTemplate given argument).bind (fun _ => rfl) ih

/-- **With the flag, all arguments are read the same way.** -/
theorem mirrors_readArguments (progress : Progress) (arguments : List String) :
    Mirrors loudPair (readArguments progress arguments)
      (readArguments (loudPair progress) arguments) := by
  induction arguments generalizing progress with
  -- The induction is on the arguments; what an argument does is the same for all options.
  | nil =>
    obtain ⟨given, waiting⟩ := progress
    cases waiting with
    | none => exact Mirrors.ok (f := loudPair) (given, Command.compile)
    | some option => exact Mirrors.error (by simp [readArguments]) _
  | cons argument rest ih =>
    obtain ⟨given, waiting⟩ := progress
    rcases readArguments_cons_cases waiting argument with hnext | hend | hcommand
    · rw [loudPair, hnext, hnext]
      exact (mirrors_readNext (given, waiting) argument).bind loudPair_loudPair ih
    · rw [loudPair, hend, hend]
      exact (mirrors_readPositional given rest).pair Command.compile
    · obtain ⟨command, -, heq⟩ := hcommand rest
      rw [loudPair, heq, heq]
      cases command with
      | error stop => exact Mirrors.error (by simp [Except.map]) stop
      | ok command => exact Mirrors.ok (f := loudPair) (given, command)

/-! ## The flag put in -/

/-- The argument that sets the flag. -/
def verboseArgument : String := "--verbose"

variable {given result : Given} {command : Command} {arguments front back : List String}

/-- The argument for the flag sets the flag. -/
theorem readNext_verboseArgument (given : Given) :
    readNext (given, none) verboseArgument
      = (given.setFlag .verbose).map fun given => (given, none) := rfl

/-- The argument for the flag is no value of an option. -/
theorem not_takesNext_verboseArgument (option : ValueOption) :
    takesNext option verboseArgument.toList = false := by
  cases option <;> decide

/-- The flag is not read as a value, and not read twice. -/
theorem readNext_verboseArgument_ok {waiting : Option ValueOption} {next : Progress}
    (h : readNext (given, waiting) verboseArgument = .ok next) :
    waiting = none ∧ next = (given.loud, none) := by
  cases waiting with
  | some option =>
    rw [readNext, not_takesNext_verboseArgument] at h
    exact absurd h (by simp)
  | none =>
    rw [readNext_verboseArgument, Given.setFlag] at h
    split at h
    · exact absurd h (by simp [Except.map])
    · exact ⟨rfl, (Except.ok.inj h).symm⟩

/-- Where an argument is due that is no value, the flag is read and set. -/
theorem readArguments_verboseArgument (waiting : Option ValueOption) :
    readArguments (given, waiting) (verboseArgument :: back)
      = readNext (given, waiting) verboseArgument >>= (readArguments · back) := by
  cases waiting with
  | none => rfl
  | some option =>
    rw [readArguments, readNext, not_takesNext_verboseArgument]
    rfl

/-- At most one argument can be positional, and only if there is no template before it. -/
theorem eq_of_readPositional (h : readPositional given arguments = .ok result) :
    (arguments = [] ∧ result = given)
      ∨ ∃ template, arguments = [template] ∧ given.template = none := by
  cases arguments with
  | nil => exact Or.inl ⟨rfl, (Except.ok.inj h).symm⟩
  | cons template rest =>
    rw [readPositional, List.foldlM_cons] at h
    obtain ⟨next, hnext, hrest⟩ := exists_of_bind_eq_ok h
    rw [Given.setTemplate] at hnext
    split at hnext
    · exact absurd hnext (by simp)
    · rename_i hnone
      obtain rfl := Except.ok.inj hnext
      -- A second positional argument would find the template set.
      cases rest with
      | nil => exact Or.inr ⟨template, rfl, Option.not_isSome_iff_eq_none.mp hnone⟩
      | cons second rest =>
        rw [List.foldlM_cons] at hrest
        obtain ⟨third, hthird, -⟩ := exists_of_bind_eq_ok hrest
        exact absurd hthird (by simp [Given.setTemplate])

/-- Behind the end of the options the argument would be a second template. -/
theorem false_of_readPositional_insert {loud : Given}
    (h : readPositional given (front ++ back) = .ok result) (htemplate : result.template ≠ none)
    (hread : readPositional given (front ++ verboseArgument :: back) = .ok loud) : False := by
  have hne : front ++ verboseArgument :: back ≠ [] :=
    List.append_ne_nil_of_right_ne_nil _ (List.cons_ne_nil _ _)
  obtain ⟨second, hsecond, hnone⟩ := (eq_of_readPositional hread).resolve_left fun h => hne h.1
  rcases eq_of_readPositional h with ⟨-, rfl⟩ | ⟨first, hfirst, -⟩
  · exact htemplate hnone
  · have hfront := congrArg List.length hfirst
    have hboth := congrArg List.length hsecond
    simp only [List.length_append, List.length_cons, List.length_nil] at hfront hboth
    omega

/-- The command to explain does not compile. -/
theorem readExplain_ne_compile (ended : Bool) (template : Option String)
    (arguments : List String) : readExplain ended template arguments ≠ .ok .compile := by
  induction arguments generalizing ended template with
  | nil => cases template <;> simp [readExplain]
  | cons argument rest ih =>
    rw [readExplain]
    split
    · exact ih true template
    split
    · exact nofun
    split
    · exact nofun
    · exact ih ended (some argument)

/-- A command is not the one to compile. -/
theorem ne_compile_of_readCommand? {name : String} {rest : List String}
    {read : Except Stop Command} (h : readCommand? name rest = some read) :
    read ≠ .ok .compile := by
  rw [readCommand?] at h
  -- The three commands by their names, then no command.
  split at h
  · rw [← Option.some.inj h]
    exact readExplain_ne_compile false none rest
  split at h
  · rw [← Option.some.inj h]
    cases rest with
    | nil => exact nofun
    | cons argument rest =>
      rw [readMarkers]
      split
      · exact nofun
      split
      · exact nofun
      · exact nofun
  split at h
  · rw [← Option.some.inj h]
    exact nofun
  · exact absurd h (by simp)

/-- Put in where the flag is read, the argument sets the flag and changes nothing else. -/
theorem readArguments_insert {progress : Progress} {read : Given × Command}
    (h : readArguments progress (front ++ back) = .ok (given, .compile))
    (htemplate : given.template ≠ none)
    (hread : readArguments progress (front ++ verboseArgument :: back) = .ok read) :
    read = (given.loud, .compile) := by
  -- The induction is on the arguments in front, since the flag is put in behind them.
  induction front generalizing progress with
  | nil =>
    obtain ⟨before, waiting⟩ := progress
    rw [List.nil_append, readArguments_verboseArgument] at hread
    obtain ⟨next, hnext, hrest⟩ := exists_of_bind_eq_ok hread
    obtain ⟨rfl, rfl⟩ := readNext_verboseArgument_ok hnext
    -- From here on the loud reading mirrors the quiet one, and the quiet one is known.
    obtain ⟨quiet, hquiet, rfl⟩ := (mirrors_readArguments (before, none) back).quietly read hrest
    rw [← Except.ok.inj (h.symm.trans hquiet)]
    rfl
  | cons argument front ih =>
    obtain ⟨before, waiting⟩ := progress
    rw [List.cons_append] at h hread
    rcases readArguments_cons_cases waiting argument with hnext | hend | hcommand
    · rw [hnext] at h hread
      obtain ⟨next, hstep, hrest⟩ := exists_of_bind_eq_ok h
      rw [hstep] at hread
      exact ih hrest hread
    · rw [hend] at h hread
      obtain ⟨given', hquiet, heq⟩ := exists_of_map_eq_ok h
      obtain ⟨rfl, -⟩ := Prod.mk.inj heq
      obtain ⟨loud, hloud, -⟩ := exists_of_map_eq_ok hread
      exact (false_of_readPositional_insert hquiet htemplate hloud).elim
    -- Another command takes the rest over, and it does not compile.
    · obtain ⟨command, hsome, heq⟩ := hcommand (front ++ back)
      rw [heq] at h
      obtain ⟨found, hfound, hpair⟩ := exists_of_map_eq_ok h
      rw [(Prod.mk.inj hpair).2] at hfound
      exact absurd hfound (ne_compile_of_readCommand? hsome)

/-! ## Command lines -/

variable {configDefault : Option String}

/-- The defaults are the same with the flag. -/
theorem complete_loud (configDefault : Option String) (given : Given) :
    complete configDefault given.loud = (complete configDefault given).map Given.loud := by
  unfold complete
  by_cases hboth : given.arguments ≠ [] ∧ given.argumentsJson.isSome
  · have hloud : given.loud.arguments ≠ [] ∧ given.loud.argumentsJson.isSome := hboth
    rw [if_pos hloud, if_pos hboth]
    rfl
  · have hloud : ¬ (given.loud.arguments ≠ [] ∧ given.loud.argumentsJson.isSome) := hboth
    rw [if_neg hloud, if_neg hboth, Given.loud_config]
    split <;> rfl

/-- The path of the settings is all that the environment adds. -/
theorem template_of_complete (h : complete configDefault given = .ok result) :
    result.template = given.template := by
  unfold complete at h
  split at h
  · exact absurd h (by simp)
  split at h
  · rw [← Except.ok.inj h]
  · exact absurd h (by simp)
  · rw [← Except.ok.inj h]

/-- A command line is read argument by argument, and then completed. -/
theorem parse_eq_ok_iff {read : Given × Command} :
    parse configDefault arguments = .ok read
      ↔ ∃ before, readArguments ({}, none) arguments = .ok (before, read.2)
        ∧ complete configDefault before = .ok read.1 := by
  rw [parse]
  constructor
  · intro h
    obtain ⟨⟨before, command⟩, hbefore, h⟩ := exists_of_bind_eq_ok h
    obtain ⟨after, hafter, h⟩ := exists_of_bind_eq_ok h
    rw [← Except.ok.inj h]
    exact ⟨before, hbefore, hafter⟩
  · rintro ⟨before, hbefore, hafter⟩
    rw [hbefore]
    show (complete configDefault before >>= fun given => pure (given, read.2)) = _
    rw [hafter]
    rfl

/-- **A command line that compiles a template compiles it under the same options when `--verbose` is
put in anywhere,** if it can be read at all. -/
theorem parse_insert {read : Given × Command}
    (h : parse configDefault (front ++ back) = .ok (given, .compile))
    (htemplate : given.template ≠ none)
    (hread : parse configDefault (front ++ verboseArgument :: back) = .ok read) :
    read = (given.loud, .compile) := by
  obtain ⟨quiet, hquiet, hgiven⟩ := parse_eq_ok_iff.mp h
  obtain ⟨loud, hloud, hcomplete⟩ := parse_eq_ok_iff.mp hread
  rw [template_of_complete hgiven] at htemplate
  obtain ⟨rfl, hcommand⟩ := Prod.mk.inj (readArguments_insert hquiet htemplate hloud)
  rw [complete_loud, hgiven] at hcomplete
  exact Prod.ext (Except.ok.inj hcomplete).symm hcommand

/-- In front `--verbose` can always be put, unless it is given already. -/
theorem parse_cons (h : parse configDefault arguments = .ok (given, command))
    (hverbose : given.verbose = false) :
    parse configDefault (verboseArgument :: arguments) = .ok (given.loud, command) := by
  obtain ⟨quiet, hquiet, hgiven⟩ := parse_eq_ok_iff.mp h
  have hne : loudPair (quiet, command) ≠ (quiet, command) := by
    intro heq
    have hself := complete_loud configDefault quiet
    rw [(Prod.mk.inj heq).1, hgiven] at hself
    have hgiven' : given = given.loud := Except.ok.inj hself
    rw [hgiven'] at hverbose
    exact absurd hverbose (by simp [Given.loud])
  have hloud := (mirrors_readArguments ({}, none) arguments).loudly _ hquiet hne
  refine parse_eq_ok_iff.mpr ⟨quiet.loud, ?_, ?_⟩
  · rw [readArguments_verboseArgument, readNext_verboseArgument]
    exact hloud
  · rw [complete_loud, hgiven]
    rfl

end SqlTemplate.CommandLine
