import SqlTemplate.Proofs.Template.MarkersAndBlocks

/-!
Compiling as a rewriting of the template text.

The text is rewritten position by position. A question mark gives way to the text of its argument,
its type code and the braces of a flat span to nothing, and every other character stays. A flat span
that the elision mode drops gives way to nothing as a whole. None of this mentions tokens, segments
or a cursor, and what an argument is written as is never read again.

`compile_lenient` says that this is what compiling with lenient counts does. The argument for a
question mark is the one with its number, that is the number of question marks before it, and the
first one that cannot be formatted fails the whole, wherever it stands.

The proof is an induction over the layout of the text to the right of a boundary, as for the markers
and blocks: a stretch outside all flat spans, a stray brace and a block each contribute what their
segments are resolved to.
-/

set_option autoImplicit false

namespace SqlTemplate

/-! ## Rewriting by positions -/

/-- What a position is replaced by when nothing is dropped; the marker with number `k` is written as
the text of answer `k`. -/
def replacement (answer : Nat → String × Bool) (text : List Char) (i : Nat) : List Char :=
  readAt (fun k _ => (answer k).1.toList) (fun c => [c]) text i

/-- Whether a mode drops the flat span from `a` to `b`: one of its markers took the skip sentinel,
or its content after replacement has `NULL` in it. -/
def ElisionMode.Drops (mode : ElisionMode) (answer : Nat → String × Bool) (text : List Char)
    (a b : Nat) : Prop :=
  match mode with
  | structural => ∃ i < b, a < i ∧ text[i]? = some '?' ∧ (answer (marksBefore text i)).2 = true
  | textual =>
    nullText.toList <:+: (List.range' (a + 1) (b - (a + 1))).flatMap (replacement answer text)

/-- Whether a position goes with a flat span that the mode drops; the braces go too. -/
def IsDropped (mode : ElisionMode) (answer : Nat → String × Bool) (text : List Char) (i : Nat) :
    Prop :=
  ∃ a ≤ i, ∃ b < text.length, i ≤ b ∧ FlatSpan text a b ∧ mode.Drops answer text a b

section

variable (mode : ElisionMode) (answer : Nat → String × Bool) (text : List Char)

instance (a b : Nat) : Decidable (mode.Drops answer text a b) :=
  match mode with
  | .structural => inferInstanceAs
      (Decidable (∃ i < b, a < i ∧ text[i]? = some '?' ∧ (answer (marksBefore text i)).2 = true))
  | .textual => inferInstanceAs
      (Decidable (nullText.toList <:+:
        (List.range' (a + 1) (b - (a + 1))).flatMap (replacement answer text)))

instance (i : Nat) : Decidable (IsDropped mode answer text i) :=
  inferInstanceAs (Decidable
    (∃ a ≤ i, ∃ b < text.length, i ≤ b ∧ FlatSpan text a b ∧ mode.Drops answer text a b))

/-- What a position contributes to the SQL. -/
def outputAt (i : Nat) : List Char :=
  if IsDropped mode answer text i then [] else replacement answer text i

/-- A template text, rewritten. -/
def rewritten : List Char := (List.range text.length).flatMap (outputAt mode answer text)

end

variable {mode : ElisionMode} {answer : Nat → String × Bool} {text : List Char} {a b i : Nat}

/-- The contributions up to a position, and that of the position. -/
theorem flatMap_range_succ {β : Type} (f : Nat → List β) (n : Nat) :
    (List.range (n + 1)).flatMap f = (List.range n).flatMap f ++ f n := by
  rw [List.range_succ, List.flatMap_append, List.flatMap_singleton]

/-- A mark is replaced by the answer of its number. -/
theorem replacement_mark (answer : Nat → String × Bool) (h : text[i]? = some '?') :
    replacement answer text i = (answer (marksBefore text i)).1.toList :=
  readAt_of_mark _ _ h

/-- The flat span around a position decides about it. -/
theorem FlatSpan.isDropped_iff (h : FlatSpan text a b) (ha : a ≤ i) (hb : i ≤ b) :
    IsDropped mode answer text i ↔ mode.Drops answer text a b := by
  constructor
  · rintro ⟨a', ha', b', -, hb', h', hdrops⟩
    obtain ⟨rfl, rfl⟩ := h.eq_of_covers h' ha hb ha' hb'
    exact hdrops
  · intro hdrops
    exact ⟨a, ha, b, (List.getElem?_eq_some_iff.mp h.closes).1, hb, h, hdrops⟩

/-- A position that no flat span is around stays. -/
theorem not_isDropped (hdelimiter : isDelimiterAt text i = false)
    (hinside : isInside text i = false) : ¬ IsDropped mode answer text i := by
  -- A flat span around the position would make it one of its braces or put it between them.
  rintro ⟨a, ha, b, -, hb, h, -⟩
  rcases Nat.eq_or_lt_of_le ha with rfl | ha
  · rw [h.isDelimiterAt_left] at hdelimiter
    exact absurd hdelimiter (by simp)
  rcases Nat.eq_or_lt_of_le hb with rfl | hb
  · rw [h.isDelimiterAt_right] at hdelimiter
    exact absurd hdelimiter (by simp)
  · rw [h.isInside_of_lt ha hb] at hinside
    exact absurd hinside (by simp)

/-- A delimiter puts out nothing. -/
theorem outputAt_of_isDelimiterAt (mode : ElisionMode) (answer : Nat → String × Bool)
    (h : isDelimiterAt text i = true) : outputAt mode answer text i = [] := by
  rw [outputAt]
  split
  · rfl
  · exact readAt_of_isDelimiterAt _ _ h

/-! ## Filling answers in, as a reading -/

namespace Piece

/-- The text of filled pieces, read off their markers and characters. -/
theorem toList_filledText (answer : Nat → String × Bool) (k : Nat) (pieces : List Piece) :
    (filledText answer k pieces).toList
      = readAll (fun k _ => (answer k).1.toList) (fun c => [c]) k pieces := by
  rw [filledText]
  induction pieces generalizing k with
  | nil => rfl
  | cons p pieces ih =>
    cases p with
    | text content =>
      rw [fillAll_text, readAll_text, List.map_cons, String.join_cons, String.toList_append, ih]
      simp
    | marker m => rw [fillAll_marker, readAll_marker, List.map_cons, String.join_cons,
        String.toList_append, ih]

/-- Filled pieces are skipped if one of the answers is the skip sentinel. -/
theorem filledSkip_eq (answer : Nat → String × Bool) (k : Nat) (pieces : List Piece) :
    filledSkip answer k pieces
      = (readAll (fun k _ => [(answer k).2]) (fun _ => []) k pieces).any id := by
  rw [filledSkip]
  induction pieces generalizing k with
  | nil => rfl
  | cons p pieces ih =>
    cases p with
    | text content =>
      rw [fillAll_text, readAll_text, List.any_cons, ih]
      simp
    | marker m =>
      rw [fillAll_marker, readAll_marker, List.any_cons, ih]
      simp

/-- There is one question mark for each marker. -/
theorem Spelling.length_markers {pieces : List Piece} {l : List Char} (h : Spelling pieces l) :
    (pieces.flatMap markers).length = l.count '?' := by
  induction h with
  | nil => rfl
  | coded m hl ih =>
    have hne : m.code ≠ '?' := ne_mark_of_isPlain (isPlain_code m)
    rw [List.flatMap_cons, List.length_append, ih, List.count_cons_self, List.count_cons_of_ne hne]
    exact Nat.add_comm _ _
  | bare hcode hl ih =>
    rw [List.flatMap_cons, List.length_append, ih, List.count_cons_self]
    exact Nat.add_comm _ _
  | text hne hrun hend hl ih =>
    have hcount : List.count '?' _ = 0 :=
      List.count_eq_zero.mpr fun hmem => ne_mark_of_isPlain (hrun _ hmem) rfl
    rw [List.flatMap_cons, List.length_append, ih, List.count_append, hcount]
    rfl

end Piece

namespace Segment

/-- Pieces outside of blocks are resolved to their text. -/
theorem resolve_fillAll_pieces (mode : ElisionMode) (answer : Nat → String × Bool) (k : Nat)
    (pieces : List Piece) :
    Rendered.resolve mode (fillAll answer k (pieces.map .piece))
      = Piece.filledText answer k pieces := by
  rw [Rendered.resolve, Piece.filledText]
  induction pieces generalizing k with
  | nil => rfl
  | cons p pieces ih =>
    cases p with
    | text content =>
      rw [Piece.fillAll_text, List.map_cons, List.map_cons, String.join_cons, ← ih]
      exact String.join_cons
    | marker m =>
      rw [Piece.fillAll_marker, List.map_cons, List.map_cons, String.join_cons, ← ih]
      exact String.join_cons

/-- After a stretch the next segments go on with the number of question marks so far. -/
theorem resolve_fillAll_append (mode : ElisionMode) (answer : Nat → String × Bool) (k : Nat)
    {l : List Char} (hl : NoBrace l) (rest : List Segment) :
    Rendered.resolve mode (fillAll answer k ((Piece.ofText l).map .piece ++ rest))
      = Piece.filledText answer k (Piece.ofText l)
        ++ Rendered.resolve mode (fillAll answer (k + l.count '?') rest) := by
  have hmarkers : ((Piece.ofText l).map Segment.piece).flatMap markers
      = (Piece.ofText l).flatMap Piece.markers := by
    rw [List.flatMap_map]
    exact List.flatMap_congr fun p _ => markers_piece p
  rw [fillAll, mapFrom_append, hmarkers, (Piece.spelling_ofText hl).length_markers,
    Rendered.resolve, List.map_append, String.join_append, ← Rendered.resolve, ← fillAll,
    resolve_fillAll_pieces]
  rfl

theorem resolve_fillAll_text (mode : ElisionMode) (answer : Nat → String × Bool) (k : Nat)
    (content : String) (rest : List Segment) :
    Rendered.resolve mode (fillAll answer k (.piece (.text content) :: rest))
      = content ++ Rendered.resolve mode (fillAll answer k rest) :=
  String.join_cons

/-- A block is left out or resolved to its text. -/
theorem resolve_fillAll_block (mode : ElisionMode) (answer : Nat → String × Bool) (k : Nat)
    {body : List Char} (hbody : NoBrace body) (rest : List Segment) :
    Rendered.resolve mode (fillAll answer k (.block (Piece.ofText body) :: rest))
      = (if mode.drops (Piece.filledText answer k (Piece.ofText body))
            (Piece.filledSkip answer k (Piece.ofText body)) then ""
          else Piece.filledText answer k (Piece.ofText body))
        ++ Rendered.resolve mode (fillAll answer (k + body.count '?') rest) := by
  have hwidth : (block (Piece.ofText body)).markers.length = body.count '?' := by
    rw [markers_block, (Piece.spelling_ofText hbody).length_markers]
  rw [← hwidth]
  exact String.join_cons

end Segment

/-! ## Resolving, as a rewriting -/

/-- A pattern occurs in a text exactly if it is an infix of it. -/
theorem occurs_iff (pattern text : List Char) : occurs pattern text = true ↔ pattern <:+: text := by
  induction text with
  | nil => simp [occurs]
  | cons c text ih =>
    rw [occurs, Bool.or_eq_true, List.isPrefixOf_iff_prefix, ih, List.infix_cons_iff]

section Stretch

variable {pre l post : List Char}

/-- A stretch that stays contributes its pieces with their markers replaced. -/
theorem flatMap_replacement (hl : NoBrace l) (hpost : Uncoded post)
    (hpre : pre.getLast? ≠ some '?') :
    (List.range' pre.length l.length).flatMap (replacement answer (pre ++ (l ++ post)))
      = (Piece.filledText answer (pre.count '?') (Piece.ofText l)).toList := by
  rw [Piece.toList_filledText]
  exact flatMap_readAt (fun k _ => (answer k).1.toList) (fun c => [c]) (Piece.spelling_ofText hl)
    pre hpost fun h => absurd h hpre

/-- Outside all flat spans a stretch stays. -/
theorem flatMap_outputAt (mode : ElisionMode) (answer : Nat → String × Bool) (hl : NoBrace l)
    (hpost : Uncoded post) (hb : Boundary pre (l ++ post)) :
    (List.range' pre.length l.length).flatMap (outputAt mode answer (pre ++ (l ++ post)))
      = (Piece.filledText answer (pre.count '?') (Piece.ofText l)).toList := by
  rw [← flatMap_replacement hl hpost hb.unmarked]
  apply List.flatMap_congr
  intro i hi
  obtain ⟨hge, hlt⟩ := List.mem_range'_1.mp hi
  have hinside : isInside (pre ++ (l ++ post)) i = false := by
    rw [isInside_stretch hl hge hlt, Bool.and_eq_false_iff]
    -- An opening brace on the left is not closed on the right, since the boundary is settled.
    by_cases hopen : lastBrace pre = some '{'
    · have := hb.settled hopen
      rw [firstBrace_append hl] at this
      exact Or.inr (by simpa using this)
    · exact Or.inl (by simpa using hopen)
  obtain ⟨c, hc, hget⟩ := exists_getElem?_stretch post hge hlt
  rw [outputAt, if_neg (not_isDropped (isDelimiterAt_of_not_isBrace hget (hl c hc)) hinside)]

/-- A brace that delimits no block is put out. -/
theorem outputAt_stray (mode : ElisionMode) (answer : Nat → String × Bool) {c : Char}
    (hc : isBrace c = true) (hopening : c = '{' → firstBrace post ≠ some '}')
    (hclosing : c = '}' → lastBrace pre ≠ some '{') :
    outputAt mode answer (pre ++ c :: post) pre.length = [c] := by
  have hdelimiter : isDelimiterAt (pre ++ c :: post) pre.length = false := by
    rw [isDelimiterAt, getElem?_cut, braceAfter_cut, braceBefore_cut]
    rcases eq_of_isBrace hc with rfl | rfl
    · simpa using hopening rfl
    · simpa using hclosing rfl
  have hinside : isInside (pre ++ c :: post) pre.length = false := by
    rw [isInside, braceAfter_cut, braceBefore_cut]
    rcases eq_of_isBrace hc with rfl | rfl
    · simp [hopening rfl]
    · simp [hclosing rfl]
  rw [outputAt, if_neg (not_isDropped hdelimiter hinside), replacement, readAt, getElem?_cut]
  simp only [if_neg (ne_mark_of_isBrace hc), isCodeAt_cut, ofChar?_of_isBrace hc, hdelimiter]
  simp

end Stretch

section Span

variable {pre body r : List Char}

/-- The content of a flat span, with nothing dropped. -/
theorem flatMap_replacement_body (hbody : NoBrace body) :
    (List.range' (pre.length + 1) body.length).flatMap
        (replacement answer (pre ++ '{' :: (body ++ '}' :: r)))
      = (Piece.filledText answer (pre.count '?') (Piece.ofText body)).toList := by
  have h := @flatMap_replacement answer (pre ++ ['{']) body ('}' :: r) hbody
    (uncoded_of_isBrace rfl r) (by simp)
  rw [List.append_assoc, List.singleton_append, List.length_append, List.length_singleton,
    List.count_append] at h
  exact h

/-- A mode drops a flat span when it drops the block of its content. -/
theorem drops_iff (mode : ElisionMode) (answer : Nat → String × Bool) (hbody : NoBrace body) :
    mode.Drops answer (pre ++ '{' :: (body ++ '}' :: r)) pre.length (pre.length + 1 + body.length)
      ↔ mode.drops (Piece.filledText answer (pre.count '?') (Piece.ofText body))
          (Piece.filledSkip answer (pre.count '?') (Piece.ofText body)) = true := by
  cases mode with
  -- The textual mode looks at what is written in the span, the structural one at the markers.
  | textual =>
    rw [ElisionMode.Drops, ElisionMode.drops, mentionsNull, occurs_iff, Nat.add_sub_cancel_left,
      flatMap_replacement_body hbody]
  | structural =>
    have hcount : (pre ++ ['{']).count '?' = pre.count '?' := List.count_append
    have hread := flatMap_readAt (fun k _ => [(answer k).2]) (fun _ => [])
      (Piece.spelling_ofText hbody) (pre ++ ['{']) (uncoded_of_isBrace (b := '}') rfl r) (by simp)
    rw [List.append_assoc, List.singleton_append, List.length_append, List.length_singleton,
      hcount] at hread
    rw [ElisionMode.Drops, ElisionMode.drops, Piece.filledSkip_eq, ← hread, List.any_eq_true]
    simp only [id, exists_eq_right, List.mem_flatMap, List.mem_range'_1, mem_readAt,
      List.mem_singleton]
    constructor
    · rintro ⟨i, hlt, hge, hmark, hskip⟩
      exact ⟨i, ⟨hge, hlt⟩, hmark, hskip.symm⟩
    · rintro ⟨i, ⟨hge, hlt⟩, hmark, hskip⟩
      exact ⟨i, hlt, hge, hmark, hskip.symm⟩

/-- A flat span contributes its content, or nothing. -/
theorem flatMap_outputAt_body (mode : ElisionMode) (answer : Nat → String × Bool)
    (hbody : NoBrace body) :
    (List.range' (pre.length + 1) body.length).flatMap
        (outputAt mode answer (pre ++ '{' :: (body ++ '}' :: r)))
      = (if mode.drops (Piece.filledText answer (pre.count '?') (Piece.ofText body))
            (Piece.filledSkip answer (pre.count '?') (Piece.ofText body)) then ""
          else Piece.filledText answer (pre.count '?') (Piece.ofText body)).toList := by
  have hspan := flatSpan_cut hbody pre r
  -- All positions of the content share one fate.
  have hdecides : ∀ i ∈ List.range' (pre.length + 1) body.length,
      IsDropped mode answer (pre ++ '{' :: (body ++ '}' :: r)) i
        ↔ mode.drops (Piece.filledText answer (pre.count '?') (Piece.ofText body))
            (Piece.filledSkip answer (pre.count '?') (Piece.ofText body)) = true := by
    intro i hi
    obtain ⟨hge, hlt⟩ := List.mem_range'_1.mp hi
    rw [hspan.isDropped_iff (by omega) (by omega), drops_iff mode answer hbody]
  by_cases hdrops : mode.drops (Piece.filledText answer (pre.count '?') (Piece.ofText body))
      (Piece.filledSkip answer (pre.count '?') (Piece.ofText body)) = true
  · rw [if_pos hdrops, String.toList_empty, List.flatMap_eq_nil_iff]
    intro i hi
    rw [outputAt, if_pos ((hdecides i hi).mpr hdrops)]
  · rw [if_neg hdrops, ← flatMap_replacement_body (r := r) hbody]
    apply List.flatMap_congr
    intro i hi
    rw [outputAt, if_neg (mt (hdecides i hi).mp hdrops)]

end Span

/-- **What is left of the text to the right of a boundary is what its segments are resolved to.** -/
theorem flatMap_outputAt_eq (mode : ElisionMode) (answer : Nat → String × Bool) {suf : List Char}
    (h : Layout suf) (text pre : List Char) (htext : text = pre ++ suf) (hb : Boundary pre suf) :
    (List.range' pre.length suf.length).flatMap (outputAt mode answer text)
      = (Rendered.resolve mode
          (Segment.fillAll answer (pre.count '?') (Segment.ofText suf))).toList := by
  induction h generalizing pre with
  | @plain l hl =>
    rw [← List.append_nil l] at hb
    have hstretch := flatMap_outputAt mode answer hl uncoded_nil hb
    rw [List.append_nil, ← htext] at hstretch
    rw [hstretch, Segment.ofText_plain hl, Segment.resolve_fillAll_pieces]
  | @closing l r hl hr ih =>
    have hunsettled : lastBrace pre ≠ some '{' := fun hopen =>
      hb.settled hopen (by rw [firstBrace_append hl, firstBrace_cons_of_isBrace rfl])
    have hstretch := flatMap_outputAt mode answer hl (uncoded_of_isBrace (b := '}') rfl r) hb
    have hbrace := @outputAt_stray (pre ++ l) r mode answer '}' rfl (fun h => absurd h (by decide))
      (fun _ => by rwa [lastBrace_append hl])
    have htail := ih (pre ++ l ++ ['}']) (by simp [htext]) (Boundary.closing _ r)
    rw [← htext] at hstretch
    rw [List.append_assoc, ← htext] at hbrace
    rw [flatMap_range'_brace, htail, hstretch, hbrace, Segment.ofText_closing hl,
      Segment.resolve_fillAll_append mode answer _ hl, Segment.resolve_fillAll_text]
    simp
  | @opening l r hl hopen hr ih =>
    have hstretch := flatMap_outputAt mode answer hl (uncoded_of_isBrace (b := '{') rfl r) hb
    have hbrace := @outputAt_stray (pre ++ l) r mode answer '{' rfl (fun _ => hopen)
      (fun h => absurd h (by decide))
    have htail := ih (pre ++ l ++ ['{']) (by simp [htext]) (Boundary.opening _ hopen)
    rw [← htext] at hstretch
    rw [List.append_assoc, ← htext] at hbrace
    rw [flatMap_range'_brace, htail, hstretch, hbrace, Segment.ofText_opening hl hopen,
      Segment.resolve_fillAll_append mode answer _ hl, Segment.resolve_fillAll_text]
    simp
  | @block l body r hl hbody hr ih =>
    -- The braces contribute nothing in any case, so the block contributes what its content does.
    have hspan := flatSpan_cut hbody (pre ++ l) r
    have hstretch :=
      flatMap_outputAt mode answer hl (uncoded_of_isBrace (b := '{') rfl (body ++ '}' :: r)) hb
    have hinner := @flatMap_outputAt_body (pre ++ l) body r mode answer hbody
    have htail := ih (pre ++ l ++ ['{'] ++ body ++ ['}']) (by simp [htext]) (Boundary.closing _ r)
    rw [← htext] at hstretch
    rw [List.append_assoc, ← htext] at hinner hspan
    have hopening := outputAt_of_isDelimiterAt mode answer hspan.isDelimiterAt_left
    have hclosing := outputAt_of_isDelimiterAt mode answer hspan.isDelimiterAt_right
    have hleft : (pre ++ l ++ ['{']).length = (pre ++ l).length + 1 := List.length_append
    have hright : (pre ++ l ++ ['{'] ++ body).length = (pre ++ l).length + 1 + body.length := by
      rw [List.length_append, hleft]
    rw [flatMap_range'_brace, flatMap_range'_brace, htail, hstretch, hleft, hright, hopening,
      hclosing, hinner, Segment.ofText_block hl hbody,
      Segment.resolve_fillAll_append mode answer _ hl,
      Segment.resolve_fillAll_block mode answer _ hbody]
    simp [Nat.add_assoc]

/-- With the markers answered, resolving a template rewrites its text. -/
theorem resolve_fill_parse (mode : ElisionMode) (answer : Nat → String × Bool) (source : String) :
    Rendered.resolve mode ((Template.parse source).fill answer)
      = String.ofList (rewritten mode answer source.toList) := by
  have h := flatMap_outputAt_eq mode answer (Layout.of source.toList) source.toList [] rfl
    (Boundary.start _)
  rw [rewritten, List.range_eq_range']
  rw [List.length_nil] at h
  rw [h, String.ofList_toList]
  rfl

/-! ## Compiling -/

/-- What the question mark at a position is written as, by the argument with its number. A missing
argument counts as skipped. -/
def writtenAt (escape : Escaper) (arguments : List Value) (text : List Char) (i : Nat) :
    Except Error String :=
  (markerAt text i).format escape (argumentAt arguments (marksBefore text i))

section

variable {escape : Escaper} {source : String} {arguments : List Value} {written : Nat → String}

/-- If every marker can be written, the template compiles to the rewritten text. -/
theorem compile_of_written (mode : ElisionMode)
    (h : ∀ i, source.toList[i]? = some '?' →
      writtenAt escape arguments source.toList i = .ok (written (marksBefore source.toList i))) :
    compile escape ⟨mode, false⟩ source arguments
      = .ok (String.ofList (rewritten mode
          (fun k => (written k, (argumentAt arguments k).isSkip)) source.toList)) := by
  have hanswers : (Cursor.start arguments false).Answers escape (Template.parse source).markers
      fun k => (written k, (argumentAt arguments k).isSkip) := by
    intro k m hm
    obtain ⟨i, hi, rfl, rfl⟩ := getElem?_markers_parse.mp hm
    have hw := h i hi
    rw [writtenAt] at hw
    rw [Cursor.reply_lenient, hw, Cursor.start, Nat.zero_add]
    rfl
  rw [compile, Template.compile_lenient_of_answers mode hanswers, resolve_fill_parse]

/-- A success, with exact counts or without, has answered all markers. -/
theorem exists_answers_of_compile {options : Options} {sql : String}
    (h : compile escape options source arguments = .ok sql) :
    ∃ answer, (Cursor.start arguments options.strict).Answers escape
      (Template.parse source).markers answer := by
  obtain ⟨answer, hanswers, -⟩ := Template.exists_fill_of_compile h
  exact ⟨answer, hanswers⟩

/-- In a template that compiles, every marker can be written. -/
theorem exists_writtenAt_of_compile {options : Options} {sql : String} {i : Nat}
    (h : compile escape options source arguments = .ok sql) (hi : source.toList[i]? = some '?') :
    ∃ w, writtenAt escape arguments source.toList i = .ok w := by
  obtain ⟨answer, hanswers⟩ := exists_answers_of_compile h
  have hreply := hanswers _ _ (getElem?_markers_parse.mpr ⟨i, hi, rfl, rfl⟩)
  exact ⟨_, (Cursor.eq_of_reply_ok hreply).1⟩

/-- A success, with exact counts or without, has rewritten the template. -/
theorem eq_rewritten_of_compile {options : Options} {sql : String}
    (h : compile escape options source arguments = .ok sql)
    (hwritten : ∀ i, source.toList[i]? = some '?' →
      writtenAt escape arguments source.toList i = .ok (written (marksBefore source.toList i))) :
    sql = String.ofList (rewritten options.elision
      (fun k => (written k, (argumentAt arguments k).isSkip)) source.toList) := by
  obtain ⟨answer, hanswers⟩ := exists_answers_of_compile h
  -- The answers are those of the arguments, whichever way they are counted.
  have hanswers' : (Cursor.start arguments options.strict).Answers escape
      (Template.parse source).markers fun k => (written k, (argumentAt arguments k).isSkip) := by
    intro k m hm
    have hreply := hanswers k m hm
    obtain ⟨hformat, hskip⟩ := Cursor.eq_of_reply_ok hreply
    obtain ⟨i, hi, rfl, rfl⟩ := getElem?_markers_parse.mp hm
    have hw := (hwritten i hi).symm.trans hformat
    rw [hreply]
    simp only [Cursor.start, Nat.zero_add] at hskip hw ⊢
    rw [Except.ok.inj hw, ← hskip]
  rw [compile, Template.compile_of_answers hanswers'] at h
  split at h
  · exact absurd h (by simp)
  · rw [← Except.ok.inj h, resolve_fill_parse]

end

/-- **Compiling with lenient counts rewrites the template text.** If the argument of every question
mark can be written for its marker, the SQL is the text with the question marks replaced by what is
written, the braces of the flat spans removed, and the flat spans that the mode drops removed as a
whole. Otherwise the first question mark whose argument cannot be written fails the whole, inside a
flat span or not. -/
theorem compile_lenient (escape : Escaper) (mode : ElisionMode) (source : String)
    (arguments : List Value) :
    ((∀ i, source.toList[i]? = some '?' →
          ∃ w, writtenAt escape arguments source.toList i = .ok w) →
        ∃ written : Nat → String,
          (∀ i, source.toList[i]? = some '?' → writtenAt escape arguments source.toList i
              = .ok (written (marksBefore source.toList i)))
            ∧ compile escape ⟨mode, false⟩ source arguments
              = .ok (String.ofList (rewritten mode
                  (fun k => (written k, (argumentAt arguments k).isSkip)) source.toList)))
      ∧ ∀ i e, source.toList[i]? = some '?' →
          writtenAt escape arguments source.toList i = .error e →
          (∀ j < i, source.toList[j]? = some '?' →
            ∃ w, writtenAt escape arguments source.toList j = .ok w) →
          compile escape ⟨mode, false⟩ source arguments = .error e := by
  constructor
  · intro hall
    obtain ⟨written, hwritten⟩ := exists_numbering hall
    exact ⟨written, hwritten, compile_of_written mode hwritten⟩
  · intro i e hi he hbefore
    refine Template.compile_of_refuses (i := marksBefore source.toList i)
      ⟨⟨markerAt source.toList i, ?_, ?_⟩, ?_⟩
    · exact getElem?_markers_parse.mpr ⟨i, hi, rfl, rfl⟩
    · rw [Cursor.reply_lenient]
      rw [writtenAt] at he
      rw [he]
      rfl
    · intro k m hk hm
      obtain ⟨j, hj, rfl, rfl⟩ := getElem?_markers_parse.mp hm
      -- Numbers grow with positions, so an earlier marker stands further to the left.
      have hlt : j < i := by
        by_contra hge
        exact absurd (marksBefore_mono source.toList (Nat.le_of_not_lt hge)) (Nat.not_le_of_lt hk)
      obtain ⟨w, hw⟩ := hbefore j hlt hj
      rw [writtenAt] at hw
      rw [Cursor.reply_lenient, hw]
      exact ⟨_, rfl⟩

end SqlTemplate
