import SqlTemplate.Proofs.Format.ItemLists
import SqlTemplate.Proofs.Format.QuotedText
import SqlTemplate.Proofs.Format.WrittenNumerals

/-!
Reading lists of literals back.

A reader of SQL takes a list as one literal after the other, with a comma and a space between two of
them. A literal is `NULL`, a number or quoted text, and the reader tells which by its first
character; where a number ends is a matter of the grammar of numbers, and where a text ends one of
the mode. Main statement: what a list of values is written as is read as exactly the literals of the
values, in order and in number (`value_list_reads_back`). So commas, quotes and backslashes inside a
text never move the border between two items.
-/

set_option autoImplicit false

namespace SqlTemplate

/-- An SQL literal, by what it says. -/
inductive Literal where
  | null
  /-- A number, as it is written. -/
  | number (written : String)
  /-- A text, without quotes and escapes. -/
  | text (content : String)
  deriving DecidableEq, Repr

/-- What the literal of a value says, if the value has one. -/
def Value.asLiteral? : Value → Option Literal
  | null => some .null
  | bool truth => some (.number (if truth then "1" else "0"))
  | int number => some (.number (Decimal.integerText number.toInt))
  | float number => number.literal.toOption.map .number
  | text content => some (.text content)
  | sequence _ | mapping _ | skip => none

/-! ## The reader -/

/-- A number at the head of a text, as it is written, and what follows it. -/
def readNumber? (text : List Char) : Option (String × List Char) :=
  (LeadingNumber.read? text).map fun (_, rest) =>
    let size := text.length - rest.length
    (String.ofList (text.take size), text.drop size)

/-- A literal at the head of a text, and what follows it. -/
def readLiteral? (mode : EscapingMode) : List Char → Option (Literal × List Char)
  | '\'' :: body => (readQuoted? mode ('\'' :: body)).map (Prod.map .text id)
  | 'N' :: 'U' :: 'L' :: 'L' :: rest => some (.null, rest)
  | text => (readNumber? text).map (Prod.map .number id)

/-! ## Reading goes forward -/

variable {mode : EscapingMode} {text rest : List Char}

theorem exists_of_map_fst {α β γ : Type} {f : α → β} {result : Option (α × γ)} {b : β} {c : γ}
    (h : result.map (Prod.map f id) = some (b, c)) : ∃ a, result = some (a, c) := by
  obtain ⟨⟨a, c'⟩, hresult, heq⟩ := Option.map_eq_some_iff.mp h
  obtain ⟨-, rfl⟩ := Prod.mk.inj heq
  exact ⟨a, hresult⟩

theorem length_le_of_readBody? {raw : List Char} (h : readBody? mode text = some (raw, rest)) :
    rest.length ≤ text.length := by
  -- The cases are those of the reader: the end of the text, a doubled quote, the quote that ends
  -- the body, a backslash in either mode, and any other character.
  induction text using readBody?.induct mode generalizing raw with
  | case1 => exact absurd h (by simp [readBody?])
  | case2 tail ih =>
    rw [readBody?] at h
    obtain ⟨r, hr⟩ := exists_of_map_fst h
    have := ih hr
    simp only [List.length_cons]
    omega
  | case3 tail hnext =>
    rw [readBody?, Option.some_inj] at h
    · obtain ⟨-, rfl⟩ := Prod.mk.inj h
      exact Nat.le_succ _
    · exact hnext
  | case4 d tail hmode ih =>
    rw [readBody?, if_pos hmode] at h
    obtain ⟨r, hr⟩ := exists_of_map_fst h
    have := ih hr
    simp only [List.length_cons]
    omega
  | case5 d tail hmode ih =>
    rw [readBody?, if_neg hmode] at h
    obtain ⟨r, hr⟩ := exists_of_map_fst h
    exact Nat.le_succ_of_le (ih hr)
  | case6 c tail hdoubled hquote hbackslash ih =>
    rw [readBody?] at h
    · obtain ⟨r, hr⟩ := exists_of_map_fst h
      exact Nat.le_succ_of_le (ih hr)
    all_goals assumption

theorem length_le_of_readLiteral? {l : Literal} (h : readLiteral? mode text = some (l, rest)) :
    rest.length ≤ text.length := by
  rw [readLiteral?.eq_def] at h
  split at h
  · obtain ⟨content, hquoted⟩ := exists_of_map_fst h
    obtain ⟨raw, hbody⟩ := exists_of_map_fst hquoted
    exact Nat.le_succ_of_le (length_le_of_readBody? hbody)
  · obtain ⟨-, rfl⟩ := Prod.mk.inj (Option.some.inj h)
    simp only [List.length_cons]
    omega
  · obtain ⟨written, hnumber⟩ := exists_of_map_fst h
    obtain ⟨⟨n, after⟩, -, heq⟩ := Option.map_eq_some_iff.mp hnumber
    obtain ⟨-, rfl⟩ := Prod.mk.inj heq
    rw [List.length_drop]
    exact Nat.sub_le _ _

/-- Literals with a comma and a space between two of them, and nothing else. -/
def readLiteralsFrom? (mode : EscapingMode) (text : List Char) : Option (List Literal) :=
  match _ : readLiteral? mode text with
  | some (l, []) => some [l]
  | some (l, ',' :: ' ' :: rest) => (readLiteralsFrom? mode rest).map (List.cons l)
  | _ => none
termination_by text.length
decreasing_by
  rename_i h
  have := length_le_of_readLiteral? h
  simp only [List.length_cons] at this
  omega

/-- All literals of a list, which may be empty. -/
def readLiterals? (mode : EscapingMode) (text : List Char) : Option (List Literal) :=
  if text = [] then some [] else readLiteralsFrom? mode text

theorem readLiteral?_nil : readLiteral? mode [] = none := rfl

/-- The reader of literals as a reader of the items of a list. -/
def literalReader (mode : EscapingMode) : ItemReader Literal :=
  ⟨readLiteral? mode, readLiteral?_nil, length_le_of_readLiteral?⟩

/-- Reading literals is reading items that are literals. -/
theorem readLiteralsFrom?_eq (text : List Char) :
    readLiteralsFrom? mode text = (literalReader mode).readFrom? text := by
  induction text using readLiteralsFrom?.induct mode with
  | case1 text l h =>
    rw [ItemReader.readFrom?_last h, readLiteralsFrom?]
    split <;> simp_all
  | case2 text l rest h ih =>
    rw [ItemReader.readFrom?_comma h, ← ih, readLiteralsFrom?]
    split <;> simp_all
  | case3 text hlast hcomma =>
    rw [readLiteralsFrom?, ItemReader.readFrom?]
    split <;> simp_all [literalReader]

/-- Reading literals is reading items. -/
theorem readLiterals?_eq (text : List Char) :
    readLiterals? mode text = (literalReader mode).readAll? text := by
  rw [readLiterals?, ItemReader.readAll?, readLiteralsFrom?_eq]

/-! ## One literal -/

/-- A literal is read off the head of a text, if the text ends behind it or a comma follows. -/
def ReadsAs (mode : EscapingMode) (written : String) (l : Literal) : Prop :=
  ∀ rest, (∀ c, rest.head? = some c → c = ',') →
    readLiteral? mode (written.toList ++ rest) = some (l, rest)

/-- A comma ends a number and a text. -/
theorem endsNumber_of_comma (hrest : ∀ c, rest.head? = some c → c = ',') : EndsNumber rest := by
  intro c hc
  rw [hrest c hc]
  decide

/-- A numeral that is written is read as far as it goes. -/
theorem readNumber?_written {n : Numeral} {w : String} (hn : n.WellFormed)
    (hw : w.toList = n.written) (hrest : EndsNumber rest) :
    readNumber? (w.toList ++ rest) = some (w, rest) := by
  rw [readNumber?, hw, LeadingNumber.read?_written hn hrest, Option.map_some]
  simp only [List.length_append, Nat.add_sub_cancel]
  rw [List.take_left, List.drop_left, ← hw, String.ofList_toList]

/-- A number is told from other literals by its first character. -/
theorem readsAs_number {n : Numeral} {w : String} (hn : n.WellFormed)
    (hw : w.toList = n.written) : ReadsAs mode w (.number w) := by
  intro rest hrest
  have hnumber := readNumber?_written hn hw (endsNumber_of_comma hrest)
  -- The other two kinds of literal begin with a quote and with a letter.
  have hhead : ∀ c tail, w.toList ++ rest = c :: tail → isNumberChar c = true := by
    intro c tail heq
    obtain ⟨d, digits, hcons, hd⟩ := Numeral.exists_cons_written hn
    rw [hw, hcons, List.cons_append] at heq
    rw [← (List.cons.inj heq).1]
    exact hd
  rw [readLiteral?.eq_def]
  split
  · rename_i htext
    exact absurd (hhead _ _ htext) (by decide)
  · rename_i htext
    exact absurd (hhead _ _ htext) (by decide)
  · rw [hnumber]
    rfl

/-- A value is written as a literal that is read as what the value says. -/
theorem exists_readsAs {v : Value} {w : String} (h : v.literal mode.escaper = .ok w) :
    ∃ l, v.asLiteral? = some l ∧ ReadsAs mode w l := by
  cases v with
  | null =>
    rw [← Except.ok.inj h]
    exact ⟨.null, rfl, fun rest _ => rfl⟩
  | bool truth =>
    rw [← Except.ok.inj h]
    -- A truth value is written as the integer one or zero.
    have htext : (if truth then "1" else "0") = Decimal.integerText (if truth then 1 else 0) := by
      cases truth
      · decide +kernel
      · decide +kernel
    obtain ⟨n, hn, hw⟩ := Decimal.exists_numeral_integerText (if truth then 1 else 0)
    exact ⟨_, rfl, readsAs_number hn (htext ▸ hw)⟩
  | int number =>
    rw [← Except.ok.inj h]
    obtain ⟨n, hn, hw⟩ := Decimal.exists_numeral_integerText number.toInt
    exact ⟨_, rfl, readsAs_number hn hw⟩
  | float number =>
    change number.literal = .ok w at h
    obtain ⟨n, hn, hw⟩ := Binary64.exists_numeral_of_literal h
    refine ⟨.number w, ?_, readsAs_number hn hw⟩
    rw [Value.asLiteral?, h]
    rfl
  | text content =>
    refine ⟨.text content, rfl, fun rest hrest => ?_⟩
    have hquote : rest.head? ≠ some '\'' := fun hc => absurd (hrest _ hc) (by decide)
    have hread := readQuoted?_literal h hquote
    rw [EscapingMode.toList_literal_text h, List.cons_append] at hread ⊢
    rw [readLiteral?, hread]
    rfl
  | sequence | mapping | skip => exact absurd h (by simp [Value.literal])

/-! ## The statement -/

/-- A sequence that is written is read as its literals, in order. -/
theorem exists_literals {items : List Value} {sql : String}
    (h : Marker.array.format mode.escaper (.sequence items) = .ok sql) :
    ∃ literals : List Literal, items.map Value.asLiteral? = literals.map some
      ∧ readLiterals? mode sql.toList = some literals ∧ (sql = "" ↔ items = []) := by
  change commaSeparated <$> items.mapM (Value.literal mode.escaper) = .ok sql at h
  obtain ⟨ws, hws, rfl⟩ := exists_of_map_eq_ok h
  obtain ⟨ls, hls, hall⟩ := ItemReader.exists_forall₂_reads (r := literalReader mode)
    (fun _ _ _ => exists_readsAs) hws
  obtain ⟨hread, hempty⟩ := ItemReader.readAll?_commaSeparated hall
  rw [← readLiterals?_eq] at hread
  refine ⟨ls, hls, hread, hempty.trans ?_⟩
  rw [← List.map_eq_nil_iff (f := some), ← hls, List.map_eq_nil_iff]

/-- **A list of values is uniquely readable.** Where a list has a text, every item has a literal,
and the text is read as exactly these literals, in order and in number. Only the empty list has the
empty text, and every list with this text has the same literals. -/
theorem value_list_reads_back {mode : EscapingMode} {items : List Value} {sql : String}
    (h : Marker.array.format mode.escaper (.sequence items) = .ok sql) :
    ∃ literals : List Literal, items.map Value.asLiteral? = literals.map some
      ∧ readLiterals? mode sql.toList = some literals
      ∧ (sql = "" ↔ items = [])
      ∧ ∀ others, Marker.array.format mode.escaper (.sequence others) = .ok sql →
        others.map Value.asLiteral? = items.map Value.asLiteral? := by
  obtain ⟨literals, hliterals, hread, hempty⟩ := exists_literals h
  refine ⟨literals, hliterals, hread, hempty, fun others hothers => ?_⟩
  obtain ⟨literals', hliterals', hread', -⟩ := exists_literals hothers
  obtain rfl := Option.some.inj (hread.symm.trans hread')
  rw [hliterals, hliterals']

/-- A list whose second item looks like three. -/
theorem value_list_reads_back_comma :
    Marker.array.format EscapingMode.mysql.escaper
        (.sequence [.int (-5), .text "a', 'b\\", .null, .bool true])
        = .ok "-5, 'a\\', \\'b\\\\', NULL, 1"
      ∧ readLiterals? .mysql "-5, 'a\\', \\'b\\\\', NULL, 1".toList
        = some [.number "-5", .text "a', 'b\\", .null, .number "1"] := by
  have hformat : Marker.array.format EscapingMode.mysql.escaper
      (.sequence [.int (-5), .text "a', 'b\\", .null, .bool true])
        = .ok "-5, 'a\\', \\'b\\\\', NULL, 1" := by decide +kernel
  obtain ⟨literals, hliterals, hread, -, -⟩ := value_list_reads_back hformat
  have hsays : [.int (-5), .text "a', 'b\\", .null, .bool true].map Value.asLiteral?
      = [.number "-5", .text "a', 'b\\", .null, .number "1"].map some := by decide +kernel
  have heq := List.map_injective_iff.mpr (fun _ _ => Option.some.inj) (hliterals.symm.trans hsays)
  exact ⟨hformat, hread.trans (congrArg some heq)⟩

end SqlTemplate
