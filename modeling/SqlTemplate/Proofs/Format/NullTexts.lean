import SqlTemplate.Proofs.ElisionModes
import SqlTemplate.Proofs.Format.WrittenNumerals
import SqlTemplate.Proofs.QuoteScan

/-!
Where `NULL` occurs in the text of a value.

The textual mode of elision looks for `NULL` in text that is joined from parts, so the question is
whether an occurrence can lie across a border between parts. It cannot where one side of the border
ends or begins with a character that is not in `NULL` (`infix_append_iff`), and all that formatting
puts around texts, names and items is of that kind: quotes, backticks, commas, blanks and digits.
Escaping does not touch the letters of `NULL` and writes none of its own. So what is written for a
value at a marker has `NULL` in it exactly if the value brings it along (`Marker.hasNull_iff`), and
if it does not, it neither begins nor ends with one of the letters (`Marker.sealed_of_not_hasNull`).
-/

set_option autoImplicit false

namespace SqlTemplate

open Rendered (HasNull)

/-! ## Occurrences and borders -/

/-- An occurrence in two texts in a row lies in one of them, unless both texts have a character of
the pattern at the border. -/
theorem infix_append_iff {α : Type} {pattern a b : List α}
    (h : (∀ c, a.getLast? = some c → c ∉ pattern) ∨ ∀ c, b.head? = some c → c ∉ pattern) :
    pattern <:+: a ++ b ↔ pattern <:+: a ∨ pattern <:+: b := by
  constructor
  · rintro ⟨before, after, heq⟩
    rw [List.append_assoc] at heq
    rcases List.append_eq_append_iff.mp heq with ⟨left, rfl, hleft⟩ | ⟨gap, rfl, rfl⟩
    · rcases List.append_eq_append_iff.mp hleft with ⟨gap, rfl, rfl⟩ | ⟨right, rfl, rfl⟩
      · exact Or.inl ⟨before, gap, List.append_assoc _ _ _⟩
      · -- The pattern is cut in two by the border, so one of the parts is empty.
        by_cases hl : left = []
        · rw [hl, List.nil_append]
          exact Or.inr (List.prefix_append right after).isInfix
        by_cases hr : right = []
        · rw [hr, List.append_nil]
          exact Or.inl (List.suffix_append before left).isInfix
        exfalso
        rcases h with h | h
        · refine h (left.getLast hl) ?_ (List.mem_append_left right (List.getLast_mem hl))
          rw [List.getLast?_append_of_ne_nil before hl, List.getLast?_eq_getLast_of_ne_nil hl]
        · refine h (right.head hr) ?_ (List.mem_append_right left (List.head_mem hr))
          rw [List.head?_append_of_ne_nil right hr, List.head?_eq_some_head hr]
    · exact Or.inr ⟨gap, after, by rw [List.append_assoc]⟩
  · rintro (h | h)
    · exact h.trans (List.prefix_append a b).isInfix
    · exact h.trans (List.suffix_append a b).isInfix

/-- Characters that are not in `NULL` are passed over. -/
theorem infix_append_iff_of_not_mem {α : Type} {pattern a : List α} (hne : pattern ≠ [])
    (h : ∀ c ∈ a, c ∉ pattern) (b : List α) : pattern <:+: a ++ b ↔ pattern <:+: b := by
  rw [infix_append_iff (Or.inl fun c hc => h c (List.mem_of_getLast? hc)), or_iff_right]
  intro hpart
  obtain ⟨c, hc⟩ := List.exists_mem_of_ne_nil pattern hne
  exact h c (hpart.subset hc) hc

theorem nullText_ne_nil : nullText.toList ≠ [] := by decide

/-- Whether known characters are letters of `NULL` can be computed. -/
theorem not_mem_nullText_of_all {text : List Char}
    (h : (text.all fun c => !nullText.toList.contains c) = true) :
    ∀ c ∈ text, c ∉ nullText.toList := by
  intro c hc hmem
  have hnot := List.all_eq_true.mp h c hc
  rw [List.contains_iff_mem.mpr hmem] at hnot
  exact Bool.false_ne_true hnot

/-- A text without the letters of `NULL` does not mention it. -/
theorem not_hasNull_of_not_mem {w : String} (h : ∀ c ∈ w.toList, c ∉ nullText.toList) :
    ¬ HasNull w := by
  intro hpart
  exact h 'N' (hpart.subset (by decide)) (by decide)

/-- A text that is not empty and has none of the letters of `NULL` at its ends. -/
structure Sealed (w : String) : Prop where
  ne_nil : w.toList ≠ []
  head : ∀ c, w.toList.head? = some c → c ∉ nullText.toList
  last : ∀ c, w.toList.getLast? = some c → c ∉ nullText.toList

/-- Whether `NULL` occurs in a text is told by a condition, and without it the text is sealed. -/
structure ShowsNullIff (w : String) (condition : Prop) : Prop where
  hasNull_iff : HasNull w ↔ condition
  isSealed : ¬ condition → Sealed w

namespace ShowsNullIff

variable {w : String} {condition condition' : Prop}

/-- The condition may be replaced by an equivalent one. -/
theorem congr (h : ShowsNullIff w condition) (hiff : condition ↔ condition') :
    ShowsNullIff w condition' :=
  ⟨h.hasNull_iff.trans hiff, fun hnot => h.isSealed (mt hiff.mp hnot)⟩

theorem of_not_mem (hne : w.toList ≠ []) (h : ∀ c ∈ w.toList, c ∉ nullText.toList) :
    ShowsNullIff w False :=
  ⟨iff_of_false (not_hasNull_of_not_mem h) not_false, fun _ =>
    ⟨hne, fun c hc => h c (List.mem_of_head? hc), fun c hc => h c (List.mem_of_getLast? hc)⟩⟩

/-- Between two characters like quotes only what is inside counts. -/
theorem between {inner : String} {mark : String} {c : Char} (hmark : mark.toList = [c])
    (hc : c ∉ nullText.toList) : ShowsNullIff (mark ++ inner ++ mark) (HasNull inner) := by
  have hsingle : ∀ d ∈ [c], d ∉ nullText.toList := List.forall_mem_singleton.mpr hc
  have hw : (mark ++ inner ++ mark).toList = [c] ++ (inner.toList ++ [c]) := by
    rw [String.toList_append, String.toList_append, hmark, List.append_assoc]
  constructor
  -- The marks hold no letter of the pattern, so it can lie in neither of them and across none.
  · have hright : ¬ nullText.toList <:+: [c] :=
      fun h => hsingle 'N' (h.subset (by decide)) (by decide)
    have hborder : ∀ d, [c].head? = some d → d ∉ nullText.toList :=
      fun d hd => hsingle d (List.mem_of_head? hd)
    rw [HasNull, HasNull, hw, infix_append_iff_of_not_mem nullText_ne_nil hsingle,
      infix_append_iff (Or.inr hborder), or_iff_left hright]
  · intro _
    refine ⟨?_, fun d hd => ?_, fun d hd => ?_⟩
    · rw [hw]
      exact List.cons_ne_nil _ _
    · rw [hw, List.singleton_append, List.head?_cons, Option.some_inj] at hd
      exact hd ▸ hc
    · rw [hw, ← List.append_assoc, List.getLast?_concat, Option.some_inj] at hd
      exact hd ▸ hc

/-- Two texts with a separator between them that has no letter of `NULL` in it. -/
theorem append {first second : String} (separator : String) (h : ShowsNullIff first condition)
    (h' : ShowsNullIff second condition') (hne : separator.toList ≠ [])
    (hseparator : ∀ c ∈ separator.toList, c ∉ nullText.toList) :
    ShowsNullIff (first ++ separator ++ second) (condition ∨ condition') := by
  have hw : (first ++ separator ++ second).toList
      = first.toList ++ (separator.toList ++ second.toList) := by
    rw [String.toList_append, String.toList_append, List.append_assoc]
  constructor
  -- The separator keeps the two sides apart.
  · have hborder : ∀ c, (separator.toList ++ second.toList).head? = some c →
        c ∉ nullText.toList := by
      intro c hc
      rw [List.head?_append_of_ne_nil _ hne] at hc
      exact hseparator c (List.mem_of_head? hc)
    rw [← h.hasNull_iff, ← h'.hasNull_iff, HasNull, HasNull, HasNull, hw,
      infix_append_iff (Or.inr hborder),
      infix_append_iff_of_not_mem nullText_ne_nil hseparator]
  · intro hnot
    rw [not_or] at hnot
    have hfirst := h.isSealed hnot.1
    have hsecond := h'.isSealed hnot.2
    refine ⟨?_, fun c hc => ?_, fun c hc => ?_⟩
    · rw [hw]
      exact List.append_ne_nil_of_left_ne_nil hfirst.ne_nil _
    · rw [hw, List.head?_append_of_ne_nil _ hfirst.ne_nil] at hc
      exact hfirst.head c hc
    · rw [hw, ← List.append_assoc, List.getLast?_append_of_ne_nil _ hsecond.ne_nil] at hc
      exact hsecond.last c hc

/-- A list that is not empty shows `NULL` if an item does. -/
theorem commaSeparated {α : Type} {condition : α → Prop} {items : List α} {ws : List String}
    (h : List.Forall₂ (fun item w => ShowsNullIff w (condition item)) items ws)
    (hne : items ≠ []) :
    ShowsNullIff (SqlTemplate.commaSeparated ws) (∃ item ∈ items, condition item) := by
  induction h with
  | nil => exact absurd rfl hne
  | @cons item w items ws hfirst hrest ih =>
    cases hrest with
    | nil =>
      rw [SqlTemplate.commaSeparated, String.intercalate_singleton]
      exact hfirst.congr (by simp)
    | @cons next w' items ws' hnext hrest =>
      rw [SqlTemplate.commaSeparated, String.intercalate_cons_cons]
      have hlist := append ", " hfirst (ih (List.cons_ne_nil _ _)) (by decide)
        (not_mem_nullText_of_all (by decide))
      exact hlist.congr (by rw [List.exists_mem_cons_iff (a := item)])

end ShowsNullIff

/-! ## Escaping -/

/-- A character is kept, or it is no character of the pattern and none is written for it. -/
def KeepsPattern (pattern : List Char) (write : Char → List Char) : Prop :=
  ∀ c, write c = [c] ∨ write c ≠ [] ∧ c ∉ pattern ∧ ∀ d ∈ write c, d ∉ pattern

/-- A writing that keeps a pattern keeps its beginnings. -/
theorem prefix_flatMap_iff {pattern start : List Char} {write : Char → List Char}
    (hwrite : KeepsPattern pattern write) (hstart : ∀ c ∈ start, c ∈ pattern) (text : List Char) :
    start <+: text.flatMap write ↔ start <+: text := by
  -- The induction is on the text; the beginning gets shorter with it.
  induction text generalizing start with
  | nil => rfl
  | cons c text ih =>
    cases start with
    | nil => exact iff_of_true List.nil_prefix List.nil_prefix
    | cons d start =>
      rw [List.forall_mem_cons] at hstart
      rw [List.flatMap_cons]
      rcases hwrite c with heq | ⟨hne, hc, hall⟩
      · rw [heq, List.singleton_append, List.cons_prefix_cons, List.cons_prefix_cons,
          ih hstart.2]
      · -- Neither the character nor what is written for it can begin the pattern.
        obtain ⟨e, more, heq⟩ := List.exists_cons_of_ne_nil hne
        rw [heq] at hall ⊢
        rw [List.cons_append, List.cons_prefix_cons, List.cons_prefix_cons]
        constructor
        · rintro ⟨rfl, -⟩
          exact absurd hstart.1 (hall d List.mem_cons_self)
        · rintro ⟨rfl, -⟩
          exact absurd hstart.1 hc

/-- Characters are written without making an occurrence of the pattern, or breaking one. -/
theorem infix_flatMap_iff {pattern : List Char} {write : Char → List Char}
    (hwrite : KeepsPattern pattern write) (hne : pattern ≠ []) (text : List Char) :
    pattern <:+: text.flatMap write ↔ pattern <:+: text := by
  induction text with
  | nil => rfl
  | cons c text ih =>
    rw [List.flatMap_cons]
    rcases hwrite c with heq | ⟨-, hc, hall⟩
    · have hprefix := prefix_flatMap_iff hwrite (fun _ h => h) (c :: text)
      rw [List.flatMap_cons, heq, List.singleton_append] at hprefix
      rw [heq, List.singleton_append, List.infix_cons_iff, List.infix_cons_iff, hprefix, ih]
    · have hsingle : ∀ d ∈ [c], d ∉ pattern := List.forall_mem_singleton.mpr hc
      rw [infix_append_iff_of_not_mem hne hall, ih, ← List.singleton_append (x := c),
        infix_append_iff_of_not_mem hne hsingle]

/-- Escaping keeps the letters of `NULL`. -/
theorem keepsPattern_escapeChar (mode : EscapingMode) :
    KeepsPattern nullText.toList mode.escapeChar := by
  have hdouble : ∀ c, Escaper.doubleQuote c = [c] ∨ Escaper.doubleQuote c ≠ []
      ∧ c ∉ nullText.toList ∧ ∀ d ∈ Escaper.doubleQuote c, d ∉ nullText.toList := by
    intro c
    rw [Escaper.doubleQuote]
    by_cases hc : c = '\''
    · rw [if_pos hc, hc]
      exact Or.inr ⟨by decide, by decide, not_mem_nullText_of_all (by decide)⟩
    · exact Or.inl (if_neg hc)
  intro c
  cases mode with
  | mysqlNoBackslash => exact hdouble c
  | standard => exact hdouble c
  | mysql =>
    rw [EscapingMode.escapeChar, Escaper.backslash]
    split_ifs with h0 hn hr hbackslash hquote hdoubled hz
    case neg => exact Or.inl rfl
    -- In all other cases the character is known, and a backslash and a character are written.
    all_goals
      right
      subst c
      exact ⟨by decide, by decide, not_mem_nullText_of_all (by decide)⟩

/-- An escaped text mentions `NULL` exactly if the text does. -/
theorem hasNull_escaper_iff (mode : EscapingMode) (raw : String) :
    HasNull (mode.escaper raw) ↔ HasNull raw := by
  unfold HasNull
  rw [EscapingMode.escaper, Escaper.ofChars, String.toList_ofList]
  exact infix_flatMap_iff (keepsPattern_escapeChar mode) nullText_ne_nil raw.toList

/-! ## Literals -/

/-- No number has a letter of `NULL` in it. -/
theorem not_mem_nullText_of_isNumberChar {c : Char} (h : isNumberChar c = true) :
    c ∉ nullText.toList := by
  intro hc
  have hletters : (nullText.toList.all fun c => !isNumberChar c) = true := by decide
  have hnot := List.all_eq_true.mp hletters c hc
  rw [h] at hnot
  exact Bool.false_ne_true hnot

/-- A numeral never shows `NULL`. -/
theorem ShowsNullIff.of_numeral {w : String} {n : Numeral} (hn : n.WellFormed)
    (hw : w.toList = n.written) (h : ∀ c ∈ w.toList, isNumberChar c = true) :
    ShowsNullIff w False := by
  apply of_not_mem
  · obtain ⟨c, tail, hcons, -⟩ := Numeral.exists_cons_written hn
    rw [hw, hcons]
    exact List.cons_ne_nil _ _
  · exact fun c hc => not_mem_nullText_of_isNumberChar (h c hc)

/-- An integer never shows `NULL`. -/
theorem Decimal.showsNullIff_integerText (k : Int) : ShowsNullIff (integerText k) False := by
  obtain ⟨n, hn, hw⟩ := exists_numeral_integerText k
  exact .of_numeral hn hw (isNumberChar_of_mem_integerText k)

theorem Binary64.showsNullIff_literal {x : Binary64} {w : String} (h : x.literal = .ok w) :
    ShowsNullIff w False := by
  obtain ⟨n, hn, hw⟩ := Binary64.exists_numeral_of_literal h
  exact .of_numeral hn hw (Binary64.isNumberChar_of_mem_literal h)

/-- An identifier shows `NULL` exactly if its name does. -/
theorem showsNullIff_quotedIdentifier (name : String) :
    ShowsNullIff (quotedIdentifier name) (HasNull name) :=
  .between (c := '`') rfl (by decide)

/-- A value whose literal has `NULL` in it: null itself, or a text with `NULL` in it. -/
inductive Value.SpellsNull : Value → Prop
  | null : SpellsNull .null
  | text {content : String} (h : HasNull content) : SpellsNull (.text content)

variable {mode : EscapingMode} {w : String}

/-- A literal shows `NULL` exactly if the value spells it. -/
theorem Value.showsNullIff_literal {v : Value} (h : v.literal mode.escaper = .ok w) :
    ShowsNullIff w v.SpellsNull := by
  cases v with
  | null =>
    rw [← Except.ok.inj h]
    exact ⟨iff_of_true (List.infix_refl _) .null, fun hnot => absurd .null hnot⟩
  -- Truth values and numbers are written without any letter of the word.
  | bool truth =>
    rw [← Except.ok.inj h]
    refine ShowsNullIff.congr (.of_not_mem ?_ ?_) (iff_of_false not_false nofun)
    · cases truth <;> decide
    · cases truth <;> exact not_mem_nullText_of_all (by decide)
  | int number =>
    rw [← Except.ok.inj h]
    exact (Decimal.showsNullIff_integerText _).congr (iff_of_false not_false nofun)
  | float number => exact (Binary64.showsNullIff_literal h).congr (iff_of_false not_false nofun)
  | text content =>
    rw [← Except.ok.inj h]
    refine ShowsNullIff.congr (.between (c := '\'') rfl (by decide)) ?_
    rw [hasNull_escaper_iff]
    exact ⟨.text, fun h => by cases h; assumption⟩
  | sequence | mapping | skip => exact absurd h (by simp [literal])

/-- An entry shows `NULL` exactly if its name or its value does. -/
theorem Value.showsNullIff_formatEntry {entry : String × Value}
    (h : formatEntry mode.escaper entry = .ok w) :
    ShowsNullIff w (HasNull entry.1 ∨ entry.2.SpellsNull) := by
  obtain ⟨written, hwritten, hw⟩ := exists_of_bind_eq_ok h
  rw [← Except.ok.inj hw]
  exact .append " = " (showsNullIff_quotedIdentifier entry.1) (showsNullIff_literal hwritten)
    (by decide) (not_mem_nullText_of_all (by decide))

/-! ## Markers -/

/-- A list or a mapping without items. -/
def Value.IsEmptyContainer : Value → Prop
  | sequence items => items = []
  | mapping entries => entries = []
  | _ => False

/-- A value that brings `NULL` into the text that replaces a marker. -/
inductive Marker.BringsNull : Marker → Value → Prop
  | null {m : Marker} : BringsNull m .null
  | skip {m : Marker} : BringsNull m .skip
  | content {content : String} (h : HasNull content) : BringsNull .scalar (.text content)
  | item {items : List Value} {item : Value} (hmem : item ∈ items) (h : item.SpellsNull) :
    BringsNull .array (.sequence items)
  | key {entries : List (String × Value)} {entry : String × Value} (hmem : entry ∈ entries)
    (h : HasNull entry.1) : BringsNull .array (.mapping entries)
  | value {entries : List (String × Value)} {entry : String × Value} (hmem : entry ∈ entries)
    (h : entry.2.SpellsNull) : BringsNull .array (.mapping entries)
  | name {name : String} (h : HasNull name) : BringsNull .identifier (.text name)
  | listed {items : List Value} {name : String} (hmem : .text name ∈ items) (h : HasNull name) :
    BringsNull .identifier (.sequence items)

theorem Value.showsNullIff_formatScalar {v : Value} (hv : v ≠ .null ∧ v ≠ .skip)
    (h : v.formatScalar mode.escaper = .ok w) :
    ShowsNullIff w (Marker.scalar.BringsNull v) := by
  rw [formatScalar.eq_def] at h
  split at h
  · exact absurd h (by simp)
  · exact absurd h (by simp)
  · refine (showsNullIff_literal h).congr ⟨fun hspells => ?_, fun hbrings => ?_⟩
    · cases hspells with
      | null => exact .null
      | text hcontent => exact .content hcontent
    · cases hbrings with
      | null => exact .null
      | skip => exact absurd rfl hv.2
      | content hcontent => exact .text hcontent

theorem Value.showsNullIff_formatName {v : Value} (h : v.formatName = .ok w) :
    ShowsNullIff w (∃ name, v = .text name ∧ HasNull name) := by
  cases v with
  | text name =>
    rw [← Except.ok.inj h]
    exact (showsNullIff_quotedIdentifier name).congr (by simp)
  | null | bool | int | float | sequence | mapping | skip =>
    exact absurd h (by simp [formatName])

/-- Identifiers show `NULL` exactly if the value brings it, if there is a name at all. -/
theorem Value.showsNullIff_formatIdentifiers {v : Value} (hv : v ≠ .null ∧ v ≠ .skip)
    (hfull : ¬ v.IsEmptyContainer) (h : v.formatIdentifiers = .ok w) :
    ShowsNullIff w (Marker.identifier.BringsNull v) := by
  rw [formatIdentifiers.eq_def] at h
  split at h
  -- A list of names, and then a single name.
  · rename_i items
    obtain ⟨ws, hws, rfl⟩ := exists_of_map_eq_ok h
    have hall := (forall₂_of_mapM hws).imp fun _ _ => showsNullIff_formatName
    refine (ShowsNullIff.commaSeparated hall hfull).congr ⟨?_, fun hbrings => ?_⟩
    · rintro ⟨item, hmem, name, rfl, hname⟩
      exact .listed hmem hname
    · cases hbrings with
      | listed hmem hname => exact ⟨_, hmem, _, rfl, hname⟩
  · refine (showsNullIff_formatName h).congr ⟨?_, fun hbrings => ?_⟩
    · rintro ⟨name, rfl, hname⟩
      exact .name hname
    · cases hbrings with
      | null => exact absurd rfl hv.1
      | skip => exact absurd rfl hv.2
      | name hname => exact ⟨_, rfl, hname⟩
      | listed hmem hname => exact absurd h (by simp [formatName])

/-- The array marker shows `NULL` exactly if the value brings it, if there is an item at all. -/
theorem Value.showsNullIff_formatArray {v : Value} (hfull : ¬ v.IsEmptyContainer)
    (h : v.formatArray mode.escaper = .ok w) : ShowsNullIff w (Marker.array.BringsNull v) := by
  rw [formatArray.eq_def] at h
  split at h
  -- The items of a sequence, and then the entries of a mapping.
  · rename_i items
    obtain ⟨ws, hws, rfl⟩ := exists_of_map_eq_ok h
    have hall := (forall₂_of_mapM hws).imp fun _ _ => showsNullIff_literal
    refine (ShowsNullIff.commaSeparated hall hfull).congr ⟨?_, fun hbrings => ?_⟩
    · rintro ⟨item, hmem, hitem⟩
      exact .item hmem hitem
    · cases hbrings with
      | item hmem hitem => exact ⟨_, hmem, hitem⟩
  · rename_i entries
    obtain ⟨ws, hws, rfl⟩ := exists_of_map_eq_ok h
    have hall := (forall₂_of_mapM hws).imp fun _ _ => showsNullIff_formatEntry
    refine (ShowsNullIff.commaSeparated hall hfull).congr ⟨?_, fun hbrings => ?_⟩
    · rintro ⟨entry, hmem, hkey | hvalue⟩
      · exact .key hmem hkey
      · exact .value hmem hvalue
    · cases hbrings with
      | key hmem hkey => exact ⟨_, hmem, Or.inl hkey⟩
      | value hmem hvalue => exact ⟨_, hmem, Or.inr hvalue⟩
  · exact absurd h (by simp)

/-- **What replaces a marker has `NULL` in it exactly if the value brings it along,** and else it is
sealed. A list or a mapping without items is written as nothing and seals nothing. -/
theorem Marker.showsNullIff {m : Marker} {v : Value} (h : m.format mode.escaper v = .ok w)
    (hfull : m = .array ∨ m = .identifier → ¬ v.IsEmptyContainer) :
    ShowsNullIff w (m.BringsNull v) := by
  have hnull : ∀ v, m.BringsNull v → ShowsNullIff nullText (m.BringsNull v) := fun v hv =>
    ⟨iff_of_true (List.infix_refl _) hv, fun hnot => absurd hv hnot⟩
  rw [format.eq_def] at h
  split at h
  · rw [← Except.ok.inj h]
    exact hnull _ .null
  · rw [← Except.ok.inj h]
    exact hnull _ .skip
  · rename_i hnotNull hnotSkip
    -- Null and skip are done; for other values the marker decides what is written.
    have hv : v ≠ .null ∧ v ≠ .skip := ⟨hnotNull, hnotSkip⟩
    cases m with
    | scalar => exact Value.showsNullIff_formatScalar hv h
    | array => exact Value.showsNullIff_formatArray (hfull (Or.inl rfl)) h
    | identifier => exact Value.showsNullIff_formatIdentifiers hv (hfull (Or.inr rfl)) h
    | integer =>
      have hnone : ¬ Marker.integer.BringsNull v := by
        rintro (_ | _)
        · exact hv.1 rfl
        · exact hv.2 rfl
      change v.formatInteger = .ok w at h
      rw [Value.formatInteger] at h
      split at h
      · rw [← Except.ok.inj h]
        exact (Decimal.showsNullIff_integerText _).congr (iff_of_false not_false hnone)
      · exact absurd h (by simp)
    | float =>
      have hnone : ¬ Marker.float.BringsNull v := by
        rintro (_ | _)
        · exact hv.1 rfl
        · exact hv.2 rfl
      change v.formatFloat = .ok w at h
      rw [Value.formatFloat] at h
      split at h
      · exact (Binary64.showsNullIff_literal h).congr (iff_of_false not_false hnone)
      · exact absurd h (by simp)

end SqlTemplate
