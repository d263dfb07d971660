import SqlTemplate.Proofs.Format.ValueLists

/-!
Reading names and named values back.

A name stands between backticks and is written as it is, so a reader takes it to end at the next
backtick, and it reads back exactly if it has none of its own (`reads_quotedIdentifier`). That is
all that is asked of names: quotes, commas, equals signs and braces in them are between backticks
and separate nothing. A named value is a name and a literal, which ends by the rules of literals
whatever text it holds. Main statement: the names of a list and the named values of a mapping are
read from what is written for them, in order and in number, repeated names included
(`named_lists_read_back`).
-/

set_option autoImplicit false

namespace SqlTemplate

variable {mode : EscapingMode} {text rest : List Char}

/-! ## The readers -/

/-- A name between backticks at the head of a text, and what follows it. -/
def readIdentifier? : List Char → Option (String × List Char)
  | '`' :: body =>
    match body.dropWhile fun c => c ≠ '`' with
    | _ :: rest => some (String.ofList (body.takeWhile fun c => c ≠ '`'), rest)
    | [] => none
  | _ => none

/-- A name, an equals sign between blanks and a literal, and what follows them. -/
def readPair? (mode : EscapingMode) (text : List Char) :
    Option ((String × Literal) × List Char) :=
  match readIdentifier? text with
  | some (name, ' ' :: '=' :: ' ' :: rest) =>
    (readLiteral? mode rest).map (Prod.map (Prod.mk name) id)
  | _ => none

theorem readIdentifier?_nil : readIdentifier? [] = none := rfl

theorem length_le_of_readIdentifier? {name : String}
    (h : readIdentifier? text = some (name, rest)) : rest.length ≤ text.length := by
  rw [readIdentifier?.eq_def] at h
  split at h
  · rename_i body
    split at h
    · rename_i c after hdrop
      obtain ⟨-, rfl⟩ := Prod.mk.inj (Option.some.inj h)
      -- What is left stands behind a backtick of the body.
      have hsuffix := (List.dropWhile_suffix (l := body) fun c => decide (c ≠ '`')).length_le
      rw [hdrop] at hsuffix
      simp only [List.length_cons] at hsuffix ⊢
      omega
    · exact absurd h (by simp)
  · exact absurd h (by simp)

theorem readPair?_nil : readPair? mode [] = none := rfl

theorem length_le_of_readPair? {entry : String × Literal}
    (h : readPair? mode text = some (entry, rest)) : rest.length ≤ text.length := by
  rw [readPair?] at h
  split at h
  · rename_i name after hname
    obtain ⟨l, hliteral⟩ := exists_of_map_fst h
    have hfirst := length_le_of_readIdentifier? hname
    have hsecond := length_le_of_readLiteral? hliteral
    simp only [List.length_cons] at hfirst
    omega
  · exact absurd h (by simp)

/-- The reader of names as a reader of the items of a list. -/
def identifierReader : ItemReader String :=
  ⟨readIdentifier?, readIdentifier?_nil, length_le_of_readIdentifier?⟩

/-- The reader of named values as a reader of the items of a list. -/
def entryReader (mode : EscapingMode) : ItemReader (String × Literal) :=
  ⟨readPair? mode, readPair?_nil, length_le_of_readPair?⟩

/-- All names of a list, which may be empty. -/
def readIdentifiers? (text : List Char) : Option (List String) :=
  identifierReader.readAll? text

/-- All named values of a list, which may be empty. -/
def readEntries? (mode : EscapingMode) (text : List Char) : Option (List (String × Literal)) :=
  (entryReader mode).readAll? text

/-! ## One item -/

/-- An identifier is written between backticks. -/
theorem toList_quotedIdentifier (name : String) :
    (quotedIdentifier name).toList = '`' :: (name.toList ++ ['`']) := by
  rw [quotedIdentifier, String.toList_append, String.toList_append, List.append_assoc]
  rfl

/-- A name without a backtick is read back, whatever follows it. -/
theorem readIdentifier?_quotedIdentifier {name : String} (h : '`' ∉ name.toList)
    (rest : List Char) :
    readIdentifier? ((quotedIdentifier name).toList ++ rest) = some (name, rest) := by
  have hname : ∀ c ∈ name.toList, decide (c ≠ '`') = true := by
    intro c hc
    rw [decide_eq_true_eq]
    rintro rfl
    exact h hc
  have hbody : name.toList ++ ['`'] ++ rest = name.toList ++ '`' :: rest := by simp
  -- The characters of the name are passed over, and the closing backtick is the first to stop at.
  have htake : (name.toList ++ '`' :: rest).takeWhile (fun c => decide (c ≠ '`'))
      = name.toList := by
    rw [List.takeWhile_append_of_pos hname, List.takeWhile_cons_of_neg (by simp), List.append_nil]
  have hdrop : (name.toList ++ '`' :: rest).dropWhile (fun c => decide (c ≠ '`'))
      = '`' :: rest := by
    rw [List.dropWhile_append_of_pos hname, List.dropWhile_cons_of_neg (by simp)]
  rw [toList_quotedIdentifier, List.cons_append, hbody, readIdentifier?, hdrop, htake]
  simp only [String.ofList_toList]

/-- A quoted identifier is read as its name. -/
theorem reads_quotedIdentifier {name : String} (h : '`' ∉ name.toList) :
    identifierReader.Reads (quotedIdentifier name) name :=
  fun rest _ => readIdentifier?_quotedIdentifier h rest

/-- What a named value says, if its value has a literal. -/
def Value.asEntry? (entry : String × Value) : Option (String × Literal) :=
  entry.2.asLiteral?.map (Prod.mk entry.1)

/-- An entry that is written is read as its name and a literal. -/
theorem exists_reads_of_formatEntry {entry : String × Value} {w : String}
    (hname : '`' ∉ entry.1.toList) (h : Value.formatEntry mode.escaper entry = .ok w) :
    ∃ e, Value.asEntry? entry = some e ∧ (entryReader mode).Reads w e := by
  obtain ⟨literal, hliteral, hw⟩ := exists_of_bind_eq_ok h
  obtain ⟨l, hl, hreads⟩ := exists_readsAs hliteral
  refine ⟨(entry.1, l), ?_, fun rest hrest => ?_⟩
  · rw [Value.asEntry?, hl, Option.map_some]
  · have htext : w.toList ++ rest
        = (quotedIdentifier entry.1).toList ++ ' ' :: '=' :: ' ' :: (literal.toList ++ rest) := by
      rw [← Except.ok.inj hw, String.toList_append, String.toList_append, List.append_assoc,
        List.append_assoc]
      rfl
    show readPair? mode (w.toList ++ rest) = _
    rw [htext, readPair?, readIdentifier?_quotedIdentifier hname]
    simp only [hreads rest hrest, Option.map_some, Prod.map_apply, id]

/-! ## The statement -/

/-- A mapping that is written is read as its entries, in order. -/
theorem exists_entries {entries : List (String × Value)} {sql : String}
    (hnames : ∀ entry ∈ entries, '`' ∉ entry.1.toList)
    (h : Marker.array.format mode.escaper (.mapping entries) = .ok sql) :
    ∃ pairs : List (String × Literal), entries.map Value.asEntry? = pairs.map some
      ∧ readEntries? mode sql.toList = some pairs := by
  change commaSeparated <$> entries.mapM (Value.formatEntry mode.escaper) = .ok sql at h
  obtain ⟨ws, hws, rfl⟩ := exists_of_map_eq_ok h
  obtain ⟨pairs, hpairs, hall⟩ := ItemReader.exists_forall₂_reads (r := entryReader mode)
    (fun entry hentry w => exists_reads_of_formatEntry (hnames entry hentry)) hws
  exact ⟨pairs, hpairs, (ItemReader.readAll?_commaSeparated hall).1⟩

/-- A list of texts is written as the quoted names. -/
theorem format_identifiers_text (escape : Escaper) (names : List String) :
    Marker.identifier.format escape (.sequence (names.map .text))
      = .ok (commaSeparated (names.map quotedIdentifier)) := by
  have hwritten : (names.map Value.text).mapM Value.formatName
      = .ok (names.map quotedIdentifier) := by
    induction names with
    | nil => rfl
    | cons name names ih =>
      rw [List.map_cons, List.mapM_cons, ih]
      rfl
  show commaSeparated <$> (names.map Value.text).mapM Value.formatName = _
  rw [hwritten]
  rfl

/-- Quoted identifiers with commas in between are read as the names. -/
theorem readIdentifiers?_commaSeparated {names : List String}
    (hnames : ∀ name ∈ names, '`' ∉ name.toList) :
    readIdentifiers? (commaSeparated (names.map quotedIdentifier)).toList = some names := by
  refine (ItemReader.readAll?_commaSeparated ?_).1
  rw [List.forall₂_map_left_iff, List.forall₂_same]
  exact fun name hname => reads_quotedIdentifier (hnames name hname)

/-- **Mappings and lists of names are uniquely readable** when the names have no backtick. Where a
mapping has a text, every value of it has a literal, and the text is read as exactly the names with
their literals, in order and in number; every mapping with this text has the same names and
literals. One name, and any list of names, has a text, and it is read as exactly these names; so two
lists of names with the same text are the same. -/
theorem named_lists_read_back (mode : EscapingMode) :
    (∀ (entries : List (String × Value)) (sql : String),
        (∀ entry ∈ entries, '`' ∉ entry.1.toList) →
        Marker.array.format mode.escaper (.mapping entries) = .ok sql →
        ∃ pairs : List (String × Literal), entries.map Value.asEntry? = pairs.map some
          ∧ readEntries? mode sql.toList = some pairs
          ∧ ∀ others : List (String × Value), (∀ entry ∈ others, '`' ∉ entry.1.toList) →
            Marker.array.format mode.escaper (.mapping others) = .ok sql →
            others.map Value.asEntry? = entries.map Value.asEntry?)
      ∧ (∀ name : String, '`' ∉ name.toList →
          ∃ sql, Marker.identifier.format mode.escaper (.text name) = .ok sql
            ∧ readIdentifiers? sql.toList = some [name])
      ∧ ∀ names : List String, (∀ name ∈ names, '`' ∉ name.toList) →
          ∃ sql, Marker.identifier.format mode.escaper (.sequence (names.map .text)) = .ok sql
            ∧ readIdentifiers? sql.toList = some names
            ∧ ∀ others : List String, (∀ name ∈ others, '`' ∉ name.toList) →
              Marker.identifier.format mode.escaper (.sequence (others.map .text)) = .ok sql →
              others = names := by
  refine ⟨fun entries sql hnames h => ?_, fun name hname => ?_, fun names hnames => ?_⟩
  · obtain ⟨pairs, hpairs, hread⟩ := exists_entries hnames h
    refine ⟨pairs, hpairs, hread, fun others hothers h' => ?_⟩
    obtain ⟨pairs', hpairs', hread'⟩ := exists_entries hothers h'
    obtain rfl := Option.some.inj (hread.symm.trans hread')
    rw [hpairs, hpairs']
  · -- One name is written as a list of one name is.
    have hread : readIdentifiers? (commaSeparated ([name].map quotedIdentifier)).toList
        = some [name] := readIdentifiers?_commaSeparated (List.forall_mem_singleton.mpr hname)
    rw [List.map_singleton, commaSeparated, String.intercalate_singleton] at hread
    exact ⟨_, rfl, hread⟩
  · have hread := readIdentifiers?_commaSeparated hnames
    refine ⟨_, format_identifiers_text _ names, hread, fun others hothers h' => ?_⟩
    rw [format_identifiers_text, Except.ok.injEq] at h'
    have hread' := readIdentifiers?_commaSeparated hothers
    rw [h'] at hread'
    exact Option.some.inj (hread'.symm.trans hread)

/-- A mapping with a repeated name that looks like an assignment, and an empty name in a list. -/
theorem named_lists_read_back_repeated :
    Marker.array.format EscapingMode.standard.escaper
        (.mapping [("a = 'x', ?", .text "it's, `b` = 1"), ("a = 'x', ?", .null)])
        = .ok "`a = 'x', ?` = 'it''s, `b` = 1', `a = 'x', ?` = NULL"
      ∧ readEntries? .standard
          "`a = 'x', ?` = 'it''s, `b` = 1', `a = 'x', ?` = NULL".toList
        = some [("a = 'x', ?", .text "it's, `b` = 1"), ("a = 'x', ?", .null)]
      ∧ readIdentifiers? "``, `a, b`".toList = some ["", "a, b"] := by
  have hformat : Marker.array.format EscapingMode.standard.escaper
      (.mapping [("a = 'x', ?", .text "it's, `b` = 1"), ("a = 'x', ?", .null)])
        = .ok "`a = 'x', ?` = 'it''s, `b` = 1', `a = 'x', ?` = NULL" := by decide +kernel
  obtain ⟨hentries, -, hnames⟩ := named_lists_read_back .standard
  obtain ⟨pairs, hpairs, hread, -⟩ := hentries _ _ (by decide) hformat
  have hmeaning : [("a = 'x', ?", Value.text "it's, `b` = 1"), ("a = 'x', ?", .null)].map
      Value.asEntry?
      = [("a = 'x', ?", Literal.text "it's, `b` = 1"), ("a = 'x', ?", .null)].map some := by
    decide +kernel
  have heq := List.map_injective_iff.mpr (fun _ _ => Option.some.inj) (hpairs.symm.trans hmeaning)
  obtain ⟨sql, hsql, hlist, -⟩ := hnames ["", "a, b"] (by decide)
  have htext : sql = "``, `a, b`" :=
    Except.ok.inj (hsql.symm.trans (by decide +kernel))
  rw [htext] at hlist
  exact ⟨hformat, hread.trans (congrArg some heq), hlist⟩

end SqlTemplate
