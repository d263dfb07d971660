import SqlTemplate.Proofs.Template.Layout
import Mathlib.Data.List.Basic

/-!
Reading a template from its beginning, by ordered choice.

A segment is a block, or else a piece, or else a stray brace; a block is an opening brace, pieces
for as long as there are some, and a closing brace. If the closing brace is missing the attempt is
given up, and the text after the opening brace is read once more from there. Each reader takes a
head of the text and returns what follows it, or refuses.

`readTemplate?_eq` says that this reading never refuses a text, never leaves any of it unread, and
finds the segments that `Template.parse` finds from the end in one pass.
-/

set_option autoImplicit false

namespace SqlTemplate

variable {α β : Type}

/-- Takes something from the head of a text and returns what follows it, or refuses. -/
abbrev Reader (α : Type) := List Char → Option (α × List Char)

namespace Reader

/-- As many as there are. A reader that takes nothing would go on for ever and is refused. -/
def many (reader : Reader α) (text : List Char) : Option (List α × List Char) :=
  match reader text with
  | none => some ([], text)
  | some (a, rest) =>
    if rest.length < text.length then
      (many reader rest).map fun (as, after) => (a :: as, after)
    else none
termination_by text.length

/-- A question mark and the type code after it, if there is one. -/
def marker? : Reader Marker
  | '?' :: c :: rest =>
    match Marker.ofChar? c with
    | some m => some (m, rest)
    | none => some (.scalar, c :: rest)
  | '?' :: [] => some (.scalar, [])
  | _ => none

/-- Plain characters, as many as there are and at least one. -/
def run? : Reader String := fun text =>
  if text.takeWhile isPlain = [] then none
  else some (String.ofList (text.takeWhile isPlain), text.dropWhile isPlain)

/-- A marker, or else a run of plain characters. -/
def piece? : Reader Piece := fun text =>
  ((marker? text).map fun (m, rest) => (Piece.marker m, rest))
    <|> ((run? text).map fun (content, rest) => (Piece.text content, rest))

/-- An opening brace, pieces, and a closing brace. -/
def block? : Reader (List Piece)
  | '{' :: rest =>
    match many piece? rest with
    | some (pieces, '}' :: after) => some (pieces, after)
    | _ => none
  | _ => none

/-- A brace that stands for itself. -/
def brace? : Reader String
  | c :: rest => if isBrace c then some (String.ofList [c], rest) else none
  | [] => none

/-- A block, or else a piece, or else a stray brace. -/
def segment? : Reader Segment := fun text =>
  ((block? text).map fun (pieces, rest) => (Segment.block pieces, rest))
    <|> ((piece? text).map fun (p, rest) => (Segment.piece p, rest))
    <|> ((brace? text).map fun (content, rest) => (Segment.piece (.text content), rest))

end Reader

/-- The segments of a text that is read to its end. -/
def readTemplate? (text : List Char) : Option (List Segment) :=
  match Reader.many Reader.segment? text with
  | some (segments, []) => some segments
  | _ => none

namespace Reader

/-! ## Repetition -/

/-- Repeating what reads nothing reads nothing. -/
theorem many_of_none {reader : Reader α} {text : List Char} (h : reader text = none) :
    many reader text = some ([], text) := by
  rw [many, h]

/-- Repeating a reader that takes something goes on behind what it took. -/
theorem many_of_some {reader : Reader α} {text rest : List Char} {a : α}
    (h : reader text = some (a, rest)) (hlt : rest.length < text.length) :
    many reader text = (many reader rest).map fun (as, after) => (a :: as, after) := by
  rw [many, h]
  exact if_pos hlt

/-! ## Pieces -/

/-- A coded marker is a piece. -/
theorem piece?_coded (m : Marker) (rest : List Char) :
    piece? ('?' :: m.code :: rest) = some (.marker m, rest) := by
  rw [piece?, marker?, Marker.ofChar?_code]
  rfl

/-- A bare question mark is the scalar marker. -/
theorem piece?_bare {rest : List Char} (h : Uncoded rest) :
    piece? ('?' :: rest) = some (.marker .scalar, rest) := by
  cases rest with
  | nil => rfl
  | cons c rest =>
    rw [piece?, marker?, h c rfl]
    rfl

theorem marker?_of_ne {c : Char} (hc : c ≠ '?') (rest : List Char) :
    marker? (c :: rest) = none := by
  rw [marker?.eq_def]
  split
  · rename_i heq
    exact absurd (List.cons.inj heq).1 hc
  · rename_i heq
    exact absurd (List.cons.inj heq).1 hc
  · rfl

/-- A run of plain characters is read as far as it goes. -/
theorem piece?_run {run rest : List Char} (hne : run ≠ []) (hrun : ∀ c ∈ run, isPlain c = true)
    (hend : ∀ c, rest.head? = some c → isPlain c = false) :
    piece? (run ++ rest) = some (.text (String.ofList run), rest) := by
  have hstop : rest.takeWhile isPlain = [] ∧ rest.dropWhile isPlain = rest := by
    cases rest with
    | nil => exact ⟨rfl, rfl⟩
    | cons c rest => simp [hend c rfl]
  have htake : (run ++ rest).takeWhile isPlain = run := by
    rw [List.takeWhile_append_of_pos hrun, hstop.1, List.append_nil]
  have hdrop : (run ++ rest).dropWhile isPlain = rest := by
    rw [List.dropWhile_append_of_pos hrun, hstop.2]
  obtain ⟨c, run', rfl⟩ := List.exists_cons_of_ne_nil hne
  have hmark : marker? (c :: run' ++ rest) = none :=
    marker?_of_ne (ne_mark_of_isPlain (hrun c List.mem_cons_self)) (run' ++ rest)
  rw [piece?, hmark, run?, htake, hdrop, if_neg hne]
  rfl

/-- No piece begins at a brace, nor at the end. -/
theorem piece?_of_stop {text : List Char} (h : ∀ c, text.head? = some c → isBrace c = true) :
    piece? text = none := by
  cases text with
  | nil => rfl
  | cons b rest =>
    have hb : isBrace b = true := h b rfl
    have hplain : isPlain b = false := by simp [isPlain, hb]
    rw [piece?, marker?_of_ne (ne_mark_of_isBrace hb), run?,
      List.takeWhile_cons_of_neg (by simp [hplain])]
    rfl

/-- **Pieces are read one by one** as they are spelled, up to a brace or the end, by any reader that
tries a piece where one begins. -/
theorem many_of_spelling {reader : Reader α} {wrap : Piece → α}
    (hreader : ∀ text p rest, piece? text = some (p, rest) → reader text = some (wrap p, rest))
    {pieces : List Piece} {l : List Char} (h : Piece.Spelling pieces l) {post : List Char}
    (hpost : ∀ c, post.head? = some c → isBrace c = true) :
    many reader (l ++ post)
      = (many reader post).map fun (as, after) => (pieces.map wrap ++ as, after) := by
  -- Reading a piece puts it in front of what is read behind it.
  have hcons : ∀ (p : Piece) (tail : List Piece) (o : Option (List α × List Char)),
      ((o.map fun (as, after) => (tail.map wrap ++ as, after)).map
        fun (as, after) => (wrap p :: as, after))
      = o.map fun (as, after) => ((p :: tail).map wrap ++ as, after) := by
    intro p tail o
    rw [Option.map_map]
    rfl
  induction h with
  | nil =>
    rw [List.nil_append]
    cases many reader post <;> rfl
  | @coded m pieces l hl ih =>
    have hread := hreader _ _ _ (piece?_coded m (l ++ post))
    have hlt : (l ++ post).length < ('?' :: m.code :: (l ++ post)).length := by
      rw [List.length_cons, List.length_cons]
      omega
    rw [List.cons_append, List.cons_append, many_of_some hread hlt, ih, hcons]
  | @bare pieces l hcode hl ih =>
    -- A brace behind the question mark is no type code either.
    have hnext : Uncoded (l ++ post) := by
      cases l with
      | nil => exact fun c hc => ofChar?_of_isBrace (hpost c hc)
      | cons c l => exact hcode
    have hread := hreader _ _ _ (piece?_bare hnext)
    rw [List.cons_append, many_of_some hread (by simp), ih, hcons]
  | @text run pieces l hne hrun hend hl ih =>
    -- A run is read to its end, where a question mark stands or a brace.
    have hstop : ∀ c, (l ++ post).head? = some c → isPlain c = false := by
      intro c hc
      cases l with
      | nil => simp [isPlain, hpost c hc]
      | cons d l => rw [hend c hc]; rfl
    have hread := hreader _ _ _ (piece?_run hne hrun hstop)
    have hlt : (l ++ post).length < (run ++ (l ++ post)).length := by
      have := List.length_pos_of_ne_nil hne
      simp only [List.length_append]
      omega
    rw [List.append_assoc, many_of_some hread hlt, ih, hcons]

/-- Between braces pieces are read to the end of the stretch. -/
theorem many_piece? {l : List Char} (hl : NoBrace l) {post : List Char}
    (hpost : ∀ c, post.head? = some c → isBrace c = true) :
    many piece? (l ++ post) = some (Piece.ofText l, post) := by
  rw [many_of_spelling (fun _ _ _ h => h) (Piece.spelling_ofText hl) hpost,
    many_of_none (piece?_of_stop hpost)]
  simp

/-! ## Segments -/

theorem block?_of_ne {c : Char} (hc : c ≠ '{') (rest : List Char) : block? (c :: rest) = none := by
  rw [block?.eq_def]
  split
  · rename_i heq
    exact absurd (List.cons.inj heq).1 hc
  · rfl

/-- Two braces without a brace between them are read as a block of the pieces inside. -/
theorem block?_block {body : List Char} (hbody : NoBrace body) (r : List Char) :
    block? ('{' :: (body ++ '}' :: r)) = some (Piece.ofText body, r) := by
  rw [block?, many_piece? hbody (fun c hc => by rw [← Option.some.inj hc]; rfl)]
  rfl

/-- An attempt at a block is given up where the next brace opens another one, or none comes. -/
theorem block?_opening {r : List Char} (hr : firstBrace r ≠ some '}') :
    block? ('{' :: r) = none := by
  rw [block?]
  -- The pieces run up to the next brace or the end; neither is the closing brace that is wanted.
  rcases noBrace_or_cut r with hl | ⟨l, b, rest, rfl, hl, hb⟩
  · have hmany := many_piece? hl (fun c (hc : ([] : List Char).head? = some c) => by simp at hc)
    rw [List.append_nil] at hmany
    rw [hmany]
  · rw [firstBrace_append hl, firstBrace_cons_of_isBrace hb] at hr
    rw [many_piece? hl (fun c hc => by rw [← Option.some.inj hc]; exact hb)]
    split
    · rename_i heq
      rw [Option.some.injEq, Prod.mk.injEq] at heq
      exact absurd (congrArg some (List.cons.inj heq.2).1) hr
    · rfl

/-- What is a piece is a segment. -/
theorem segment?_of_piece? (text : List Char) (p : Piece) (rest : List Char)
    (h : piece? text = some (p, rest)) : segment? text = some (.piece p, rest) := by
  have hblock : block? text = none := by
    cases text with
    | nil => rfl
    | cons c text =>
      refine block?_of_ne (fun hc => ?_) text
      subst hc
      rw [piece?_of_stop (fun c hc => by rw [← Option.some.inj hc]; rfl)] at h
      exact absurd h (by simp)
  rw [segment?, hblock, h]
  rfl

/-- A brace that begins no block is text. -/
theorem segment?_stray {b : Char} (hb : isBrace b = true) {rest : List Char}
    (hblock : block? (b :: rest) = none) :
    segment? (b :: rest) = some (.piece (.text (String.ofList [b])), rest) := by
  have hpiece : piece? (b :: rest) = none :=
    piece?_of_stop fun c hc => by rw [← Option.some.inj hc]; exact hb
  rw [segment?, hblock, hpiece, brace?, if_pos hb]
  rfl

theorem segment?_block {body : List Char} (hbody : NoBrace body) (r : List Char) :
    segment? ('{' :: (body ++ '}' :: r)) = some (.block (Piece.ofText body), r) := by
  rw [segment?, block?_block hbody]
  rfl

/-- **Segments are read to the end of the text,** as its layout has them. -/
theorem many_segment? {text : List Char} (h : Layout text) :
    many segment? text = some (Segment.ofText text, []) := by
  induction h with
  | @plain l hl =>
    have hread := many_of_spelling segment?_of_piece? (Piece.spelling_ofText hl)
      (fun c (hc : ([] : List Char).head? = some c) => by simp at hc)
    rw [List.append_nil, many_of_none (show segment? [] = none from rfl)] at hread
    rw [hread, Segment.ofText_plain hl]
    simp
  | @closing l r hl hr ih =>
    have hstray := segment?_stray (b := '}') rfl (block?_of_ne (by decide) r)
    rw [many_of_spelling segment?_of_piece? (Piece.spelling_ofText hl)
      (fun c hc => by rw [← Option.some.inj hc]; rfl), many_of_some hstray (by simp), ih,
      Segment.ofText_closing hl]
    rfl
  | @opening l r hl hopen hr ih =>
    -- The attempt at a block is given up, and the text after the brace is read once more.
    have hstray := segment?_stray (b := '{') rfl (block?_opening hopen)
    rw [many_of_spelling segment?_of_piece? (Piece.spelling_ofText hl)
      (fun c hc => by rw [← Option.some.inj hc]; rfl), many_of_some hstray (by simp), ih,
      Segment.ofText_opening hl hopen]
    rfl
  | @block l body r hl hbody hr ih =>
    rw [many_of_spelling segment?_of_piece? (Piece.spelling_ofText hl)
      (fun c hc => by rw [← Option.some.inj hc]; rfl),
      many_of_some (segment?_block hbody r) (by simp; omega), ih, Segment.ofText_block hl hbody]
    rfl

end Reader

/-- **Reading by ordered choice succeeds on every text and agrees with `Template.parse`.** -/
theorem readTemplate?_eq (source : String) :
    readTemplate? source.toList = some (Template.parse source).segments := by
  rw [readTemplate?, Reader.many_segment? (Layout.of source.toList), Segment.segments_parse]

end SqlTemplate
