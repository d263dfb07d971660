import SqlTemplate.Named

/-!
TOML documents as data, and how their tables grow.

A document is a table. A table remembers how it came about, because that decides what may still be
added to it: a table written in braces is complete; one with a header of its own takes no keys by
way of dotted paths; one that only stands on the path of a header may still get its own header; and
one that a dotted key made takes further dotted keys, but no header.
-/

set_option autoImplicit false

namespace SqlTemplate

/-- How a table came about. -/
inductive Toml.Origin where
  /-- Written in braces. -/
  | braces
  /-- Given a header, or the document itself. -/
  | header
  /-- On the way to a table with a header. -/
  | implied
  /-- Made by a dotted key. -/
  | dotted
  deriving DecidableEq, Repr

/-- A TOML value. Of floats and dates only the kind is kept. -/
inductive Toml where
  | string (content : String)
  | integer (number : Int)
  | float
  | boolean (truth : Bool)
  | dateTime
  | array (items : List Toml)
  | table (origin : Toml.Origin) (entries : List (String × Toml))
  /-- Tables that share a header in double brackets, the last one first. -/
  | tables (last : List (String × Toml)) (earlier : List (List (String × Toml)))
  deriving Repr

namespace Toml

/-- The entries of a table, in order. -/
abbrev Entries := Named Toml

/-- Change the table at the end of a path. Tables that are missing on the way are made, by the kind
of path: `dotted` for the path of a dotted key, `implied` for that of a header. A dotted key does
not enter a table that has a header or braces; of tables that share a header, the last one is
meant. -/
def changeAt (made : Origin) (change : Origin → Entries → Option Entries) :
    List String → Origin → Entries → Option Entries
  | [], origin, entries => change origin entries
  | key :: path, _, entries =>
    match entries.lookup key with
    | none =>
      (changeAt made change path made []).map fun child => Named.set key (.table made child) entries
    | some (.table origin child) =>
      if origin = .braces ∨ (made = .dotted ∧ origin = .header) then none
      else
        (changeAt made change path origin child).map fun child =>
          Named.set key (.table origin child) entries
    | some (.tables last earlier) =>
      (changeAt made change path .header last).map fun last =>
        Named.set key (.tables last earlier) entries
    | some _ => none

/-- Add a key that does not exist yet. A plain key goes into a table that no dotted key made, and a
dotted key into one that a dotted key made. -/
def addKey (plain : Bool) (key : String) (value : Toml) (origin : Origin) (entries : Entries) :
    Option Entries :=
  if plain = decide (origin = .dotted) then none
  else if (entries.lookup key).isSome then none
  else some (entries ++ [(key, value)])

/-- Add a value under a dotted key, given as its path and its last part. -/
def insert (path : List String) (key : String) (value : Toml) (origin : Origin)
    (entries : Entries) : Option Entries :=
  changeAt .dotted (addKey path.isEmpty key value) path origin entries

/-- Begin a table under its header: it must be new, or have stood only on the way to other
tables. -/
def beginTable (key : String) (_ : Origin) (entries : Entries) : Option Entries :=
  match entries.lookup key with
  | none => some (entries ++ [(key, .table .header [])])
  | some (.table .implied child) => some (Named.set key (.table .header child) entries)
  | some _ => none

/-- Begin one more of the tables that share a header in double brackets. -/
def beginNextTable (key : String) (_ : Origin) (entries : Entries) : Option Entries :=
  match entries.lookup key with
  | none => some (entries ++ [(key, .tables [] [])])
  | some (.tables last earlier) => some (Named.set key (.tables [] (last :: earlier)) entries)
  | some _ => none

end Toml

end SqlTemplate
