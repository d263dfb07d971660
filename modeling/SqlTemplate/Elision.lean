import SqlTemplate.Literal

/-!
Elision: which optional blocks of a rendered template are dropped.

The structural mode drops a block when one of its placeholders received the skip sentinel. The
textual mode drops a block whose text contains `NULL`, wherever that came from.
-/

set_option autoImplicit false

namespace SqlTemplate

/-- How it is decided that a block is dropped. -/
inductive ElisionMode where
  /-- Drop a block in which a placeholder received the skip sentinel. -/
  | structural
  /-- Drop a block whose text contains `NULL`. -/
  | textual
  deriving DecidableEq, Repr, Inhabited

namespace ElisionMode

/-- The name of a mode in settings and on the command line. -/
def name : ElisionMode → String
  | structural => "structural"
  | textual => "textual"

/-- All modes. -/
def all : List ElisionMode := [structural, textual]

/-- The mode of a name. -/
def ofName (name : String) : Except Error ElisionMode :=
  match all.find? fun mode => mode.name == name with
  | some mode => .ok mode
  | none => .error (.settings ("unknown elision mode '" ++ name
      ++ "', expected structural or textual"))

end ElisionMode

/-- A segment of a template whose markers have been replaced. -/
inductive Rendered where
  | text (content : String)
  /-- A block, and whether one of its placeholders received the skip sentinel. -/
  | block (body : String) (skipped : Bool)
  deriving DecidableEq, Repr

/-- Whether a pattern occurs in a text. -/
def occurs (pattern : List Char) : List Char → Bool
  | [] => pattern.isEmpty
  | c :: rest => pattern.isPrefixOf (c :: rest) || occurs pattern rest

/-- Whether `NULL` occurs in a text. -/
def mentionsNull (text : String) : Bool :=
  occurs nullText.toList text.toList

/-- Whether a mode drops a block. -/
def ElisionMode.drops (mode : ElisionMode) (body : String) (skipped : Bool) : Bool :=
  match mode with
  | structural => skipped
  | textual => mentionsNull body

namespace Rendered

/-- What a mode keeps of a segment. -/
def kept (mode : ElisionMode) : Rendered → String
  | text content => content
  | block body skipped => if mode.drops body skipped then "" else body

/-- The text that a mode makes of rendered segments. -/
def resolve (mode : ElisionMode) (rendered : List Rendered) : String :=
  String.join (rendered.map (kept mode))

end Rendered

end SqlTemplate
