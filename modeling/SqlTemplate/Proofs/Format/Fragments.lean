import SqlTemplate.Format
import SqlTemplate.Proofs.Format.NumberCharacters
import SqlTemplate.Proofs.Results
import Mathlib.Data.List.Basic

/-!
Which part of a formatted value is the body of a text literal.

What replaces a marker is a row of fragments: literals of raw text, and code, which is everything
else, that is numbers, `NULL`, names and separators. Only scalars and the items and values of arrays
can be literals. `Marker.format_eq` says that formatting is writing the fragments of a value, so a
fact about what is written can be proved of a single fragment.
-/

set_option autoImplicit false

namespace SqlTemplate

/-- A part of a formatted value. -/
inductive Fragment where
  /-- Text that is no literal of raw text. -/
  | code (text : String)
  /-- A text value between single quotes. -/
  | literal (raw : String)
  deriving DecidableEq, Repr

namespace Fragment

/-- The text of a fragment. -/
def written (escape : Escaper) : Fragment → String
  | code text => text
  | literal raw => "'" ++ escape raw ++ "'"

/-- The text of fragments in a row. -/
def writtenAll (escape : Escaper) (fragments : List Fragment) : String :=
  String.join (fragments.map (written escape))

/-- Fragments of several items, with commas between the items. -/
def commaSeparated (items : List (List Fragment)) : List Fragment :=
  List.intercalate [code ", "] items

variable (escape : Escaper)

/-- Fragments are written one behind the other. -/
theorem writtenAll_append (as bs : List Fragment) :
    writtenAll escape (as ++ bs) = writtenAll escape as ++ writtenAll escape bs := by
  rw [writtenAll, List.map_append, String.join_append]
  rfl

theorem writtenAll_singleton (f : Fragment) : writtenAll escape [f] = f.written escape := by
  rw [writtenAll, List.map_singleton, String.join_cons, String.join_nil, String.append_empty]

/-- Separated fragments are written as separated texts. -/
theorem writtenAll_commaSeparated (items : List (List Fragment)) :
    writtenAll escape (commaSeparated items)
      = SqlTemplate.commaSeparated (items.map (writtenAll escape)) := by
  rw [commaSeparated, SqlTemplate.commaSeparated]
  induction items with
  | nil => rfl
  | cons item items ih =>
    cases items with
    | nil => rw [List.map_singleton, String.intercalate_singleton, List.intercalate_singleton]
    | cons next items =>
      rw [List.map_cons, List.map_cons, String.intercalate_cons_cons, ← List.map_cons, ← ih,
        List.intercalate_cons_cons, writtenAll_append, writtenAll_append, writtenAll_singleton]
      rfl

end Fragment

/-- A scalar as a fragment. -/
def Value.fragment (escape : Escaper) : Value → Except Error Fragment
  | text raw => .ok (.literal raw)
  | value => Fragment.code <$> value.literal escape

/-- A named value as fragments. -/
def Value.entryFragments (escape : Escaper) (entry : String × Value) :
    Except Error (List Fragment) :=
  (fun f => [.code (quotedIdentifier entry.1 ++ " = "), f]) <$> entry.2.fragment escape

/-- The fragments of a value at a marker. -/
def Marker.fragments (escape : Escaper) : Marker → Value → Except Error (List Fragment)
  | scalar, .text raw => .ok [.literal raw]
  | array, .sequence items =>
    (fun fs => Fragment.commaSeparated (fs.map fun f => [f])) <$> items.mapM (Value.fragment escape)
  | array, .mapping entries =>
    Fragment.commaSeparated <$> entries.mapM (Value.entryFragments escape)
  | marker, value => (fun w => [.code w]) <$> marker.format escape value

variable {escape : Escaper}

theorem Fragment.map_written_code (result : Except Error String) :
    written escape <$> (code <$> result) = result := by
  cases result <;> rfl

theorem Fragment.map_writtenAll_code (result : Except Error String) :
    writtenAll escape <$> ((fun w => [code w]) <$> result) = result := by
  cases result with
  | error e => rfl
  | ok w => exact congrArg Except.ok (writtenAll_singleton escape (code w))

/-- The literal of a value is its fragment, as it is written. -/
theorem Value.literal_eq (v : Value) :
    v.literal escape = Fragment.written escape <$> v.fragment escape := by
  cases v with
  | text raw => rfl
  | _ => exact (Fragment.map_written_code _).symm

/-- An entry is its fragments, as they are written. -/
theorem Value.formatEntry_eq (entry : String × Value) :
    formatEntry escape entry = Fragment.writtenAll escape <$> entryFragments escape entry := by
  rw [formatEntry, literal_eq, entryFragments]
  cases entry.2.fragment escape with
  | error e => rfl
  | ok f =>
    have hpair := Fragment.writtenAll_append escape [.code (quotedIdentifier entry.1 ++ " = ")] [f]
    rw [Fragment.writtenAll_singleton, Fragment.writtenAll_singleton] at hpair
    exact congrArg Except.ok hpair.symm

/-- **Formatting is writing fragments.** -/
theorem Marker.format_eq (m : Marker) (v : Value) :
    m.format escape v = Fragment.writtenAll escape <$> m.fragments escape v := by
  rw [fragments.eq_def]
  split
  · exact congrArg Except.ok (Fragment.writtenAll_singleton escape (.literal _)).symm
  -- A sequence at the array marker: one fragment for each item.
  · rename_i items
    show commaSeparated <$> items.mapM (Value.literal escape) = _
    rw [funext Value.literal_eq, mapM_map]
    cases items.mapM (Value.fragment escape) with
    | error e => rfl
    | ok fs =>
      refine congrArg Except.ok ?_
      have hsingle : (fs.map fun f => [f]).map (Fragment.writtenAll escape)
          = fs.map (Fragment.written escape) := by
        rw [List.map_map]
        exact List.map_congr_left fun f _ => Fragment.writtenAll_singleton escape f
      rw [Fragment.writtenAll_commaSeparated, hsingle]
  -- A mapping: the name, the equals sign and the fragment of the value for each entry.
  · rename_i entries
    show commaSeparated <$> entries.mapM (Value.formatEntry escape) = _
    rw [funext Value.formatEntry_eq, mapM_map]
    cases entries.mapM (Value.entryFragments escape) with
    | error e => rfl
    | ok fs => exact congrArg Except.ok (Fragment.writtenAll_commaSeparated escape fs).symm
  · exact (Fragment.map_writtenAll_code _).symm

/-! ## Quotes -/

/-- The names that a marker writes between backticks. -/
def Marker.names : Marker → Value → List String
  | identifier, .text name => [name]
  | identifier, .sequence items =>
    items.filterMap fun | .text name => some name | _ => none
  | array, .mapping entries => entries.map Prod.fst
  | _, _ => []

/-- Code without a single quote; a literal is allowed to have its two. -/
def Fragment.Unquoted : Fragment → Prop
  | code text => '\'' ∉ text.toList
  | literal _ => True

/-- Numbers hold no quote. -/
theorem quote_not_mem_of_isNumberChar {text : List Char} (h : ∀ c ∈ text, isNumberChar c = true) :
    '\'' ∉ text :=
  fun hmem => absurd (h _ hmem) (by decide)

namespace Value

variable {v : Value} {w : String}

/-- Only text has a literal with quotes. -/
theorem quote_not_mem_of_literal (hv : ∀ raw, v ≠ .text raw) (h : v.literal escape = .ok w) :
    '\'' ∉ w.toList := by
  cases v with
  | null => rw [← Except.ok.inj h]; decide
  | bool truth => rw [← Except.ok.inj h]; cases truth <;> decide
  | int number =>
    rw [← Except.ok.inj h]
    exact quote_not_mem_of_isNumberChar (Decimal.isNumberChar_of_mem_integerText _)
  | float number => exact quote_not_mem_of_isNumberChar (Binary64.isNumberChar_of_mem_literal h)
  | text raw => exact absurd rfl (hv raw)
  | sequence items => exact absurd h (by simp [literal])
  | mapping entries => exact absurd h (by simp [literal])
  | skip => exact absurd h (by simp [literal])

/-- The fragment of a value is code without a quote, or a quoted value. -/
theorem unquoted_of_fragment {f : Fragment} (h : v.fragment escape = .ok f) : f.Unquoted := by
  rw [fragment.eq_def] at h
  split at h
  · rw [← Except.ok.inj h]
    trivial
  · rename_i hv
    obtain ⟨w, hw, rfl⟩ := exists_of_map_eq_ok h
    exact quote_not_mem_of_literal hv hw

/-- A quoted identifier holds a quote only if the name does. -/
theorem quote_not_mem_quotedIdentifier {name : String} (h : '\'' ∉ name.toList) :
    '\'' ∉ (quotedIdentifier name).toList := by
  rw [quotedIdentifier, String.toList_append, String.toList_append]
  simpa using h

theorem quote_not_mem_of_formatInteger (h : v.formatInteger = .ok w) : '\'' ∉ w.toList := by
  rw [formatInteger] at h
  split at h
  · rw [← Except.ok.inj h]
    exact quote_not_mem_of_isNumberChar (Decimal.isNumberChar_of_mem_integerText _)
  · exact absurd h (by simp)

theorem quote_not_mem_of_formatFloat (h : v.formatFloat = .ok w) : '\'' ∉ w.toList := by
  rw [formatFloat] at h
  split at h
  · exact quote_not_mem_of_isNumberChar (Binary64.isNumberChar_of_mem_literal h)
  · exact absurd h (by simp)

/-- A formatted name holds a quote only if the name does. -/
theorem quote_not_mem_of_formatName {name : Value}
    (hname : ∀ content, name = .text content → '\'' ∉ content.toList)
    (h : name.formatName = .ok w) : '\'' ∉ w.toList := by
  cases name with
  | text content =>
    rw [← Except.ok.inj h]
    exact quote_not_mem_quotedIdentifier (hname content rfl)
  | _ => exact absurd h (by simp [formatName])

end Value

/-- Separating texts brings in no quote. -/
theorem quote_not_mem_commaSeparated {ws : List String} (h : ∀ w ∈ ws, '\'' ∉ w.toList) :
    '\'' ∉ (commaSeparated ws).toList := by
  rw [commaSeparated]
  induction ws with
  | nil => decide
  | cons w ws ih =>
    rw [List.forall_mem_cons] at h
    -- A separator stands only in front of a further text.
    cases ws with
    | nil =>
      rw [String.intercalate_singleton]
      exact h.1
    | cons next ws =>
      rw [String.intercalate_cons_cons, String.toList_append, String.toList_append,
        List.mem_append, List.mem_append]
      rintro ((hw | hcomma) | hrest)
      · exact h.1 hw
      · exact absurd hcomma (by decide)
      · exact ih h.2 hrest

/-- Separating fragments brings in no quote. -/
theorem Fragment.unquoted_commaSeparated {items : List (List Fragment)}
    (h : ∀ item ∈ items, ∀ f ∈ item, f.Unquoted) :
    ∀ f ∈ Fragment.commaSeparated items, f.Unquoted := by
  rw [Fragment.commaSeparated]
  induction items with
  | nil => exact fun f hf => absurd hf List.not_mem_nil
  | cons item items ih =>
    rw [List.forall_mem_cons] at h
    cases items with
    | nil =>
      rw [List.intercalate_singleton]
      exact h.1
    | cons next items =>
      rw [List.intercalate_cons_cons, List.forall_mem_append, List.forall_mem_append]
      refine ⟨⟨h.1, fun f hf => ?_⟩, ih h.2⟩
      rw [List.mem_singleton.mp hf]
      show '\'' ∉ ", ".toList
      decide

/-- Formatted identifiers hold a quote only if a name does. -/
theorem Value.quote_not_mem_of_formatIdentifiers {v : Value} {w : String}
    (hnames : ∀ name ∈ Marker.identifier.names v, '\'' ∉ name.toList)
    (h : v.formatIdentifiers = .ok w) : '\'' ∉ w.toList := by
  rw [formatIdentifiers.eq_def] at h
  split at h
  · rename_i items
    obtain ⟨ws, hws, rfl⟩ := exists_of_map_eq_ok h
    refine quote_not_mem_commaSeparated fun w hw => ?_
    obtain ⟨item, hitem, hformat⟩ := exists_of_mem_mapM hws hw
    refine quote_not_mem_of_formatName (fun content hcontent => hnames content ?_) hformat
    rw [Marker.names, List.mem_filterMap]
    exact ⟨item, hitem, by rw [hcontent]⟩
  · refine quote_not_mem_of_formatName (fun content hcontent => hnames content ?_) h
    rw [hcontent]
    exact List.mem_singleton_self content

/-- An entry holds a quote outside of values only if its name does. -/
theorem Value.unquoted_of_entryFragments {entry : String × Value} {fs : List Fragment}
    (hname : '\'' ∉ entry.1.toList) (h : entryFragments escape entry = .ok fs) :
    ∀ f ∈ fs, f.Unquoted := by
  obtain ⟨f, hf, rfl⟩ := exists_of_map_eq_ok h
  rw [List.forall_mem_cons, List.forall_mem_singleton]
  refine ⟨?_, unquoted_of_fragment hf⟩
  rw [Fragment.Unquoted, String.toList_append, List.mem_append]
  rintro (hquoted | hsign)
  · exact quote_not_mem_quotedIdentifier hname hquoted
  · exact absurd hsign (by decide)

/-- Where a marker writes no literal of text it writes no single quote at all. -/
theorem Marker.quote_not_mem_of_format {m : Marker} {v : Value} {w : String}
    (hnames : ∀ name ∈ m.names v, '\'' ∉ name.toList)
    (hscalar : ∀ raw, m = .scalar → v = .text raw → False)
    (hsequence : ∀ items, m = .array → v = .sequence items → False)
    (hmapping : ∀ entries, m = .array → v = .mapping entries → False)
    (h : m.format escape v = .ok w) : '\'' ∉ w.toList := by
  rw [format.eq_def] at h
  split at h
  · rw [← Except.ok.inj h]
    decide
  · rw [← Except.ok.inj h]
    decide
  -- Null and skip are done; for other values the marker decides what is written.
  · cases m with
    | integer => exact Value.quote_not_mem_of_formatInteger h
    | float => exact Value.quote_not_mem_of_formatFloat h
    | identifier => exact Value.quote_not_mem_of_formatIdentifiers hnames h
    | scalar =>
      change v.formatScalar escape = .ok w at h
      rw [Value.formatScalar.eq_def] at h
      split at h
      · exact absurd h (by simp)
      · exact absurd h (by simp)
      · exact Value.quote_not_mem_of_literal (fun raw hraw => hscalar raw rfl hraw) h
    | array =>
      change v.formatArray escape = .ok w at h
      rw [Value.formatArray.eq_def] at h
      split at h
      · exact (hsequence _ rfl rfl).elim
      · exact (hmapping _ rfl rfl).elim
      · exact absurd h (by simp)

/-- **Outside literals of text nothing that a marker writes has a single quote,** if the names have
none. -/
theorem Marker.unquoted_of_fragments {m : Marker} {v : Value} {fs : List Fragment}
    (hnames : ∀ name ∈ m.names v, '\'' ∉ name.toList) (h : m.fragments escape v = .ok fs) :
    ∀ f ∈ fs, f.Unquoted := by
  rw [fragments.eq_def] at h
  split at h
  · rw [← Except.ok.inj h, List.forall_mem_singleton]
    trivial
  · obtain ⟨fs, hfs, rfl⟩ := exists_of_map_eq_ok h
    refine Fragment.unquoted_commaSeparated fun item hitem => ?_
    obtain ⟨f, hf, rfl⟩ := List.mem_map.mp hitem
    obtain ⟨v, -, hv⟩ := exists_of_mem_mapM hfs hf
    rw [List.forall_mem_singleton]
    exact Value.unquoted_of_fragment hv
  · obtain ⟨fs, hfs, rfl⟩ := exists_of_map_eq_ok h
    refine Fragment.unquoted_commaSeparated fun item hitem => ?_
    obtain ⟨entry, hentry, hformat⟩ := exists_of_mem_mapM hfs hitem
    exact Value.unquoted_of_entryFragments
      (hnames entry.1 (List.mem_map.mpr ⟨entry, hentry, rfl⟩)) hformat
  -- All other markers write code in one piece.
  · rename_i hscalar hsequence hmapping
    obtain ⟨w, hw, rfl⟩ := exists_of_map_eq_ok h
    rw [List.forall_mem_singleton]
    exact quote_not_mem_of_format hnames hscalar hsequence hmapping hw

end SqlTemplate
