import SqlTemplate.Error

/-!
Escaping: how raw text becomes the body of a string literal.

An escaper maps raw text to what is written between the single quotes of a literal. The three
built-in ones follow the literal rules of a kind of server each; any other function can be plugged
in where an escaper is asked for.
-/

set_option autoImplicit false

namespace SqlTemplate

/-- From raw text to the body of a literal between single quotes. -/
abbrev Escaper := String → String

namespace Escaper

/-- The escaper that treats every character on its own. -/
def ofChars (escape : Char → List Char) : Escaper :=
  fun raw => String.ofList (raw.toList.flatMap escape)

/-- A quote is written twice, and all else as it is. -/
def doubleQuote (c : Char) : List Char :=
  if c = '\'' then ['\'', '\''] else [c]

/-- Quotes, backslashes and the control characters that servers treat specially get a backslash. -/
def backslash (c : Char) : List Char :=
  if c = '\x00' then ['\\', '0']
  else if c = '\n' then ['\\', 'n']
  else if c = '\r' then ['\\', 'r']
  else if c = '\\' then ['\\', '\\']
  else if c = '\'' then ['\\', '\'']
  else if c = '\"' then ['\\', '\"']
  else if c = '\x1a' then ['\\', 'Z']
  else [c]

end Escaper

/-- The built-in literal rules. -/
inductive EscapingMode where
  /-- Backslash escapes, as MySQL and MariaDB read them by default. -/
  | mysql
  /-- MySQL with backslash escapes turned off: quotes are doubled. -/
  | mysqlNoBackslash
  /-- The rules of the SQL standard: quotes are doubled. -/
  | standard
  deriving DecidableEq, Repr, Inhabited

namespace EscapingMode

/-- The name of a mode in settings and on the command line. -/
def name : EscapingMode → String
  | mysql => "mysql"
  | mysqlNoBackslash => "mysql-no-backslash"
  | standard => "standard"

/-- All modes. -/
def all : List EscapingMode := [mysql, mysqlNoBackslash, standard]

/-- The mode of a name. -/
def ofName (name : String) : Except Error EscapingMode :=
  match all.find? fun mode => mode.name == name with
  | some mode => .ok mode
  | none => .error (.settings ("unknown escaping mode '" ++ name
      ++ "', expected mysql, mysql-no-backslash or standard"))

/-- What a mode writes for one character. -/
def escapeChar : EscapingMode → Char → List Char
  | mysql => Escaper.backslash
  | mysqlNoBackslash => Escaper.doubleQuote
  | standard => Escaper.doubleQuote

/-- The escaper of a mode. -/
def escaper (mode : EscapingMode) : Escaper :=
  Escaper.ofChars mode.escapeChar

end EscapingMode

end SqlTemplate
