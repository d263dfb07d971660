import SqlTemplate.Literal
import SqlTemplate.Proofs.QuoteScan

/-!
Reading text literals back.

`readQuoted?` reads one literal at the head of a text by the rules of the server and not by those of
the escaper: a quote inside is written twice, and the `mysql` mode knows backslash sequences too,
more of them than the escaper writes. Main statement: what is written for a text is read as that
text, and reading stops right behind it, whatever follows but another quote
(`quoted_text_reads_back`). A quote that follows would be taken for the second half of a doubled
one.
-/

set_option autoImplicit false

namespace SqlTemplate

/-! ## The reader -/

/-- What a backslash and a character stand for. -/
def unescapedChar (c : Char) : Char :=
  if c = '0' then '\x00'
  else if c = 'b' then '\x08'
  else if c = 'n' then '\n'
  else if c = 'r' then '\r'
  else if c = 't' then '\t'
  else if c = 'Z' then '\x1a'
  else c

/-- A literal behind its opening quote: the text it stands for, and what follows its closing
quote. -/
def readBody? (mode : EscapingMode) : List Char → Option (List Char × List Char)
  | [] => none
  | '\'' :: '\'' :: rest => (readBody? mode rest).map (Prod.map (List.cons '\'') id)
  | '\'' :: rest => some ([], rest)
  | '\\' :: d :: rest =>
    if mode = .mysql then (readBody? mode rest).map (Prod.map (List.cons (unescapedChar d)) id)
    else (readBody? mode (d :: rest)).map (Prod.map (List.cons '\\') id)
  | c :: rest => (readBody? mode rest).map (Prod.map (List.cons c) id)

/-- A literal at the head of a text, and what follows it. -/
def readQuoted? (mode : EscapingMode) : List Char → Option (String × List Char)
  | '\'' :: body => (readBody? mode body).map (Prod.map String.ofList id)
  | _ => none

/-! ## What the escaper writes -/

variable {mode : EscapingMode} {rest : List Char}

/-- Every backslash sequence that is written is read as the character it is written for. -/
theorem unescapedChar_of_backslash {c d : Char} (h : Escaper.backslash c = ['\\', d]) :
    unescapedChar d = c := by
  rw [Escaper.backslash] at h
  split_ifs at h with h0 hn hr hbackslash hquote hdoubled hz
  case neg => exact absurd (List.cons.inj h).2 (by simp)
  all_goals
    obtain ⟨-, htail⟩ := List.cons.inj h
    obtain ⟨rfl, -⟩ := List.cons.inj htail
  · exact h0.symm
  · exact hn.symm
  · exact hr.symm
  · exact hbackslash.symm
  · exact hquote.symm
  · exact hdoubled.symm
  · exact hz.symm

/-- A character without a meaning of its own is read as it is. -/
theorem readBody?_cons {c : Char} (hquote : c ≠ '\'') (hbackslash : mode = .mysql → c ≠ '\\')
    (text : List Char) :
    readBody? mode (c :: text) = (readBody? mode text).map (Prod.map (List.cons c) id) := by
  rw [readBody?.eq_def]
  split
  · rename_i h
    exact absurd h (List.cons_ne_nil _ _)
  · rename_i h
    exact absurd (List.cons.inj h).1 hquote
  · rename_i h
    exact absurd (List.cons.inj h).1 hquote
  · rename_i h
    obtain ⟨rfl, rfl⟩ := List.cons.inj h
    rw [if_neg fun hmode => hbackslash hmode rfl]
  · rename_i h
    obtain ⟨rfl, rfl⟩ := List.cons.inj h
    rfl

/-- What is written for one character is read as that character. -/
theorem readBody?_escapeChar (c : Char) (text : List Char) :
    readBody? mode (mode.escapeChar c ++ text)
      = (readBody? mode text).map (Prod.map (List.cons c) id) := by
  rcases mode.escapeChar_cases c with
    ⟨heq, hquote, hbackslash⟩ | ⟨rfl, d, heq⟩ | ⟨-, rfl, heq⟩
  · rw [heq, List.singleton_append, readBody?_cons hquote hbackslash]
  · rw [heq, ← unescapedChar_of_backslash heq, List.cons_append, List.singleton_append, readBody?,
      if_pos rfl]
  · rw [heq, List.cons_append, List.singleton_append, readBody?]

/-- A closing quote ends the literal if no other quote follows. -/
theorem readBody?_close (h : rest.head? ≠ some '\'') :
    readBody? mode ('\'' :: rest) = some ([], rest) := by
  cases rest with
  | nil => rfl
  | cons d rest =>
    rw [List.head?_cons, ne_eq, Option.some_inj] at h
    rw [readBody?]
    rintro rest' heq
    exact h (List.cons.inj heq).1

/-- Escaped text is read back up to the quote that ends it. -/
theorem readBody?_escaped (raw : List Char) (h : rest.head? ≠ some '\'') :
    readBody? mode (raw.flatMap mode.escapeChar ++ '\'' :: rest) = some (raw, rest) := by
  induction raw with
  | nil => exact readBody?_close h
  | cons c raw ih =>
    rw [List.flatMap_cons, List.append_assoc, readBody?_escapeChar, ih]
    rfl

/-- A text is escaped character by character. -/
theorem EscapingMode.toList_escaper (mode : EscapingMode) (raw : String) :
    (mode.escaper raw).toList = raw.toList.flatMap mode.escapeChar := by
  rw [escaper, Escaper.ofChars, String.toList_ofList]

/-- The literal of a text is its escaped characters between quotes. -/
theorem EscapingMode.toList_literal_text {mode : EscapingMode} {raw sql : String}
    (h : (Value.text raw).literal mode.escaper = .ok sql) :
    sql.toList = '\'' :: (raw.toList.flatMap mode.escapeChar ++ ['\'']) := by
  rw [← Except.ok.inj h, String.toList_append, String.toList_append, toList_escaper,
    List.append_assoc]
  rfl

/-- The literal of a text is read as the text, up to its closing quote. -/
theorem readQuoted?_literal {raw sql : String}
    (h : (Value.text raw).literal mode.escaper = .ok sql) (hrest : rest.head? ≠ some '\'') :
    readQuoted? mode (sql.toList ++ rest) = some (raw, rest) := by
  rw [EscapingMode.toList_literal_text h, List.cons_append, List.append_assoc, readQuoted?,
    List.singleton_append, readBody?_escaped _ hrest, Option.map_some, Prod.map_apply,
    String.ofList_toList, id]

/-! ## Control characters -/

/-- The characters that a `mysql` literal never holds as they are: they end a line, a text or the
input in places that SQL is sent through. -/
def fragileChars : List Char := ['\x00', '\n', '\r', '\x1a']

/-- A fragile character is in no escape. -/
theorem not_mem_backslash_of_fragile {c d : Char} (hd : d ∈ fragileChars) :
    d ∉ Escaper.backslash c := by
  intro hmem
  rw [Escaper.backslash] at hmem
  split_ifs at hmem with h0 hn hr hbackslash hquote hdoubled hz
  case neg =>
    rw [List.mem_singleton] at hmem
    subst hmem
    simp only [fragileChars, List.mem_cons, List.not_mem_nil, or_false] at hd
    rcases hd with hd | hd | hd | hd
    · exact h0 hd
    · exact hn hd
    · exact hr hd
    · exact hz hd
  -- In all other cases a backslash and a letter are written.
  all_goals
    rw [List.mem_cons, List.mem_singleton] at hmem
    rcases hmem with rfl | rfl
    · exact absurd hd (by decide)
    · exact absurd hd (by decide)

/-- With backslash escapes no fragile character stands in a literal as it is. -/
theorem not_mem_literal_of_fragile {raw sql : String} {c : Char}
    (h : (Value.text raw).literal EscapingMode.mysql.escaper = .ok sql) (hc : c ∈ fragileChars) :
    c ∉ sql.toList := by
  have hquote : c ≠ '\'' := by
    rintro rfl
    exact absurd hc (by decide)
  rw [EscapingMode.toList_literal_text h, List.mem_cons, List.mem_append, List.mem_singleton,
    List.mem_flatMap]
  rintro (heq | ⟨d, -, hd⟩ | heq)
  · exact hquote heq
  · exact not_mem_backslash_of_fragile hc hd
  · exact hquote heq

/-! ## The statement -/

/-- **Quoted text reads back exactly and ends where it should.** In every mode every text has a
literal. Whatever follows it, other than a quote, the reader takes exactly the text from it and
leaves exactly what follows. With backslash escapes the literal has no fragile character. -/
theorem quoted_text_reads_back (mode : EscapingMode) (raw : String) :
    ∃ sql, (Value.text raw).literal mode.escaper = .ok sql
      ∧ (∀ rest : List Char, rest.head? ≠ some '\'' →
        readQuoted? mode (sql.toList ++ rest) = some (raw, rest))
      ∧ (mode = .mysql → ∀ c ∈ fragileChars, c ∉ sql.toList) := by
  refine ⟨_, rfl, ?_, ?_⟩
  · intro rest hrest
    exact readQuoted?_literal rfl hrest
  · rintro rfl c hc
    exact not_mem_literal_of_fragile rfl hc

/-- A text that ends in a backslash, with a quote and a line end in it. -/
theorem quoted_text_reads_back_backslash :
    readQuoted? .mysql ("'it\\'s\\n\\\\'".toList ++ ", 'b'".toList)
        = some ("it's\n\\", ", 'b'".toList)
      ∧ '\n' ∉ "'it\\'s\\n\\\\'".toList := by
  obtain ⟨sql, hsql, hread, hfragile⟩ := quoted_text_reads_back .mysql "it's\n\\"
  obtain rfl : "'it\\'s\\n\\\\'" = sql := by
    rw [← Except.ok.inj hsql]
    decide +kernel
  exact ⟨hread _ (by decide), hfragile rfl '\n' (by decide)⟩

end SqlTemplate
