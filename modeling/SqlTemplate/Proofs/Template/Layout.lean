import SqlTemplate.Template.Parse
import Mathlib.Tactic.SplitIfs

/-!
How a template text is laid out, and what that makes of its segments.

A text is cut at its braces. Between two braces there are only plain characters and markers, and the
pieces of such a stretch are determined by their spelling (`Piece.Spelling`). A brace is decided by
the next brace: a closing brace after an opening one makes a block of what stands between them, and
every other brace is literal text. `Layout` has one constructor for each of these cases, every text
has a layout, and `Segment.ofText_plain`, `ofText_closing`, `ofText_opening` and `ofText_block` say
what each case adds to the segments. An induction over the layout of a text therefore never looks
at tokens.
-/

set_option autoImplicit false

namespace SqlTemplate

/-! ## Characters -/

/-- Whether a character is a brace. -/
def isBrace (c : Char) : Bool := c == '{' || c == '}'

/-- Whether a character stands for itself wherever it is not a type code. -/
def isPlain (c : Char) : Bool := !isBrace c && c != '?'

/-- A text without braces. -/
def NoBrace (text : List Char) : Prop := ∀ c ∈ text, isBrace c = false

/-- The first brace of a text. -/
def firstBrace (text : List Char) : Option Char := text.find? isBrace

/-- A text that does not begin with a type code. -/
def Uncoded (text : List Char) : Prop := ∀ c, text.head? = some c → Marker.ofChar? c = none

/-- There are two braces. -/
theorem eq_of_isBrace {c : Char} (h : isBrace c = true) : c = '{' ∨ c = '}' := by
  simpa [isBrace] using h

/-- No brace is a type code. -/
theorem ofChar?_of_isBrace {c : Char} (h : isBrace c = true) : Marker.ofChar? c = none := by
  rcases eq_of_isBrace h with rfl | rfl <;> rfl

/-- A plain character is no brace. -/
theorem isBrace_of_isPlain {c : Char} (h : isPlain c = true) : isBrace c = false := by
  simp only [isPlain, Bool.and_eq_true, Bool.not_eq_true'] at h
  exact h.1

/-- A plain character is no question mark. -/
theorem ne_mark_of_isPlain {c : Char} (h : isPlain c = true) : c ≠ '?' := by
  simp only [isPlain, Bool.and_eq_true, bne_iff_ne] at h
  exact h.2

theorem ne_mark_of_isBrace {c : Char} (h : isBrace c = true) : c ≠ '?' := by
  rintro rfl
  exact absurd h (by decide)

/-- A type code is plain where it does not follow a question mark. -/
theorem isPlain_code (m : Marker) : isPlain m.code = true := by
  cases m <;> rfl

/-- A type code has one marker, whose code it is. -/
theorem code_of_ofChar? {c : Char} {m : Marker} (h : Marker.ofChar? c = some m) : c = m.code := by
  simp only [Marker.ofChar?] at h
  split_ifs at h with hs hd hf ha hi <;>
    simp only [Option.some.injEq] at h <;> subst h <;> assumption

theorem noBrace_nil : NoBrace [] := fun _ h => absurd h List.not_mem_nil

/-- Two texts have no brace together exactly if each of them has none. -/
theorem noBrace_append {l r : List Char} : NoBrace (l ++ r) ↔ NoBrace l ∧ NoBrace r := by
  simp only [NoBrace, List.mem_append, or_imp, forall_and]

theorem noBrace_cons {c : Char} {l : List Char} :
    NoBrace (c :: l) ↔ isBrace c = false ∧ NoBrace l := by
  simp only [NoBrace, List.mem_cons, forall_eq_or_imp]

/-- A text without braces has no first one. -/
theorem firstBrace_of_noBrace {l : List Char} (h : NoBrace l) : firstBrace l = none :=
  List.find?_eq_none.mpr fun c hc => by rw [h c hc]; exact Bool.false_ne_true

/-- A stretch without braces does not hide the brace after it. -/
theorem firstBrace_append {l : List Char} (h : NoBrace l) (r : List Char) :
    firstBrace (l ++ r) = firstBrace r := by
  have hl : l.find? isBrace = none := firstBrace_of_noBrace h
  rw [firstBrace, List.find?_append, hl, Option.none_or, firstBrace]

theorem firstBrace_cons_of_isBrace {b : Char} (h : isBrace b = true) (r : List Char) :
    firstBrace (b :: r) = some b :=
  List.find?_cons_of_pos h

/-- A text has no brace, or is cut at its first one. -/
theorem noBrace_or_cut (text : List Char) :
    NoBrace text ∨ ∃ l b r, text = l ++ b :: r ∧ NoBrace l ∧ isBrace b = true := by
  cases h : firstBrace text with
  | none =>
    left
    intro c hc
    simpa using List.find?_eq_none.mp h c hc
  | some b =>
    right
    obtain ⟨hb, l, r, rfl, hl⟩ := List.find?_eq_some_iff_append.mp h
    exact ⟨l, b, r, rfl, fun c hc => by simpa using hl c hc, hb⟩

/-! ## Lexical units, character by character -/

namespace Token

/-- A question mark and a type code are one token. -/
theorem scan_coded {c : Char} {m : Marker} (h : Marker.ofChar? c = some m) (l : List Char) :
    scan ('?' :: c :: l) = marker m :: scan l := by
  rw [scan.eq_def]
  simp only [if_neg (show ¬ '?' = '{' by decide), if_neg (show ¬ '?' = '}' by decide), if_true, h]

/-- A question mark without a type code is the scalar marker. -/
theorem scan_bare {l : List Char} (h : Uncoded l) : scan ('?' :: l) = marker .scalar :: scan l := by
  rw [scan.eq_def]
  simp only [if_neg (show ¬ '?' = '{' by decide), if_neg (show ¬ '?' = '}' by decide), if_true]
  cases l with
  | nil => rw [scan.eq_def]
  | cons c l => simp only [h c rfl]

/-- A plain character joins the run of text behind it. -/
theorem scan_plain {c : Char} (h : isPlain c = true) (l : List Char) :
    scan (c :: l) = consPlain c (scan l) := by
  simp only [isPlain, isBrace, Bool.and_eq_true, Bool.not_eq_true', Bool.or_eq_false_iff,
    beq_eq_false_iff_ne, bne_iff_ne] at h
  rw [scan.eq_def]
  simp only [if_neg h.1.1, if_neg h.1.2, if_neg h.2]

/-- The lexical unit of a brace. -/
def ofBrace (b : Char) : Token := if b = '{' then openBrace else closeBrace

/-- A brace is a token of its own. -/
theorem scan_brace {b : Char} (h : isBrace b = true) (l : List Char) :
    scan (b :: l) = ofBrace b :: scan l := by
  rw [scan.eq_def]
  rcases eq_of_isBrace h with rfl | rfl
  · simp only [if_true, ofBrace]
  · simp only [if_neg (show ¬ '}' = '{' by decide), if_true, ofBrace]

end Token

/-- The four ways in which a text begins. A recursion over a text that treats a marker as one step
follows them. -/
theorem text_induction {motive : List Char → Prop} (nil : motive [])
    (brace : ∀ b l, isBrace b = true → motive l → motive (b :: l))
    (coded : ∀ m l, motive l → motive ('?' :: Marker.code m :: l))
    (bare : ∀ l, Uncoded l → motive l → motive ('?' :: l))
    (plain : ∀ c l, isPlain c = true → motive l → motive (c :: l)) (text : List Char) :
    motive text := by
  fun_induction Token.scan text with
  | case1 => exact nil
  | case2 l ih => exact brace '{' l rfl ih
  | case3 l _ ih => exact brace '}' l rfl ih
  | case4 => exact bare [] (fun c h => by simp at h) nil
  | case5 c l m hm _ _ ih => rw [code_of_ofChar? hm]; exact coded m l ih
  | case6 c l hm _ _ ih => exact bare _ (fun d h => by simp at h; rwa [← h]) ih
  | case7 c l h1 h2 h3 ih => exact plain c l (by simp [isPlain, isBrace, h1, h2, h3]) ih

/-! ## Cutting at a brace -/

namespace Token

/-- A plain character joins a run at the head and touches nothing else, so units that begin with a
brace can be split off. -/
theorem consPlain_append (c : Char) (tokens : List Token) {b : Char} (rest : List Token) :
    consPlain c (tokens ++ ofBrace b :: rest) = consPlain c tokens ++ ofBrace b :: rest := by
  cases tokens with
  | nil =>
    rw [ofBrace]
    split <;> rfl
  | cons token tokens => cases token <;> rfl

/-- **A brace cuts a text into two that are read apart.** No marker and no run goes across it. -/
theorem scan_append_brace {b : Char} (hb : isBrace b = true) (l r : List Char) :
    scan (l ++ b :: r) = scan l ++ ofBrace b :: scan r := by
  induction l using text_induction with
  | nil => exact scan_brace hb r
  | brace d l hd ih => rw [List.cons_append, scan_brace hd, scan_brace hd, ih, List.cons_append]
  | coded m l ih =>
    rw [List.cons_append, List.cons_append, scan_coded (Marker.ofChar?_code m),
      scan_coded (Marker.ofChar?_code m), ih, List.cons_append]
  | bare l hl ih =>
    -- After the last question mark of the left part comes the brace, which is no code.
    have hlr : Uncoded (l ++ b :: r) := by
      cases l with
      | nil =>
        intro c hc
        rw [← Option.some.inj hc]
        exact ofChar?_of_isBrace hb
      | cons d l => exact hl
    rw [List.cons_append, scan_bare hlr, scan_bare hl, ih, List.cons_append]
  | plain c l hc ih => rw [List.cons_append, scan_plain hc, scan_plain hc, ih, consPlain_append]

/-- The piece that a lexical unit is, unless it is a brace. -/
def piece? : Token → Option Piece
  | run content => some (.text (String.ofList content))
  | marker m => some (.marker m)
  | openBrace => none
  | closeBrace => none

/-- A text without braces has no units that are braces. -/
theorem isSome_piece?_of_noBrace {l : List Char} (h : NoBrace l) :
    ∀ token ∈ scan l, token.piece?.isSome := by
  induction l using text_induction with
  | nil => rw [scan.eq_def]; exact fun _ h => absurd h List.not_mem_nil
  | brace b l hb ih => exact absurd (h b List.mem_cons_self) (by rw [hb]; decide)
  | coded m l ih =>
    rw [scan_coded (Marker.ofChar?_code m)]
    exact List.forall_mem_cons.mpr ⟨rfl, ih (noBrace_cons.mp (noBrace_cons.mp h).2).2⟩
  | bare l hl ih =>
    rw [scan_bare hl]
    exact List.forall_mem_cons.mpr ⟨rfl, ih (noBrace_cons.mp h).2⟩
  | plain c l hc ih =>
    rw [scan_plain hc]
    have htail := ih (noBrace_cons.mp h).2
    cases hs : scan l with
    | nil => simp [consPlain, piece?]
    | cons token tokens =>
      rw [hs] at htail
      cases token <;> simp_all [consPlain, piece?]

end Token

/-! ## Pieces of a stretch without braces -/

namespace Piece

/-- The pieces of a text without braces. -/
def ofText (text : List Char) : List Piece := (Token.scan text).filterMap Token.piece?

/-- How pieces in a row are spelled. Text is never split in two, and a question mark stands for a
marker without a code only where no code follows it, so that a text spells one list of pieces. -/
inductive Spelling : List Piece → List Char → Prop
  | nil : Spelling [] []
  | coded (m : Marker) {pieces : List Piece} {l : List Char} (hl : Spelling pieces l) :
    Spelling (marker m :: pieces) ('?' :: m.code :: l)
  | bare {pieces : List Piece} {l : List Char} (hcode : Uncoded l) (hl : Spelling pieces l) :
    Spelling (marker .scalar :: pieces) ('?' :: l)
  | text {run : List Char} {pieces : List Piece} {l : List Char} (hne : run ≠ [])
    (hrun : ∀ c ∈ run, isPlain c = true) (hend : ∀ c, l.head? = some c → c = '?')
    (hl : Spelling pieces l) : Spelling (text (String.ofList run) :: pieces) (run ++ l)

/-- A plain character in front of pieces: it joins a text piece that starts there. -/
def joinPlain (c : Char) : List Piece → List Piece
  | text content :: rest => text (String.ofList (c :: content.toList)) :: rest
  | pieces => text (String.ofList [c]) :: pieces

/-- A plain character joins the text piece behind it. -/
theorem ofText_plain_cons {c : Char} {l : List Char} (hc : isPlain c = true) (hl : NoBrace l) :
    ofText (c :: l) = joinPlain c (ofText l) := by
  have hpiece := Token.isSome_piece?_of_noBrace hl
  rw [ofText, ofText, Token.scan_plain hc]
  cases hs : Token.scan l with
  | nil => rfl
  | cons token tokens =>
    rw [hs] at hpiece
    have htoken := hpiece token List.mem_cons_self
    cases token with
    | run content =>
      simp only [Token.consPlain, Token.piece?, List.filterMap_cons, joinPlain,
        String.toList_ofList]
    | marker m => rfl
    | openBrace => exact absurd htoken (by decide)
    | closeBrace => exact absurd htoken (by decide)

/-- Joining a plain character to the pieces spells it in front of them. -/
theorem Spelling.joinPlain {c : Char} {pieces : List Piece} {l : List Char}
    (hc : isPlain c = true) (h : Spelling pieces l) :
    Spelling (Piece.joinPlain c pieces) (c :: l) := by
  have hsingle : ∀ d ∈ [c], isPlain d = true := fun d hd => List.mem_singleton.mp hd ▸ hc
  cases h with
  | nil => exact Spelling.text (List.cons_ne_nil c []) hsingle (by simp) Spelling.nil
  | coded m hl =>
    exact Spelling.text (List.cons_ne_nil c []) hsingle (by simp) (Spelling.coded m hl)
  | bare hcode hl =>
    exact Spelling.text (List.cons_ne_nil c []) hsingle (by simp) (Spelling.bare hcode hl)
  | @text run pieces l hne hrun hend hl =>
    rw [Piece.joinPlain, String.toList_ofList]
    exact Spelling.text (List.cons_ne_nil c run) (List.forall_mem_cons.mpr ⟨hc, hrun⟩) hend hl

/-- **The pieces of a text without braces spell it.** -/
theorem spelling_ofText {l : List Char} (h : NoBrace l) : Spelling (ofText l) l := by
  induction l using text_induction with
  | nil => rw [ofText, Token.scan.eq_def]; exact Spelling.nil
  | brace b l hb ih => exact absurd (h b List.mem_cons_self) (by rw [hb]; decide)
  | coded m l ih =>
    rw [ofText, Token.scan_coded (Marker.ofChar?_code m)]
    exact Spelling.coded m (ih (noBrace_cons.mp (noBrace_cons.mp h).2).2)
  | bare l hl ih =>
    rw [ofText, Token.scan_bare hl]
    exact Spelling.bare hl (ih (noBrace_cons.mp h).2)
  | plain c l hc ih =>
    have hl := (noBrace_cons.mp h).2
    rw [ofText_plain_cons hc hl]
    exact (ih hl).joinPlain hc

/-- Pieces are spelled without braces. -/
theorem Spelling.noBrace {pieces : List Piece} {l : List Char} (h : Spelling pieces l) :
    NoBrace l := by
  induction h with
  | nil => exact noBrace_nil
  | coded m hl ih =>
    exact noBrace_cons.mpr ⟨rfl, noBrace_cons.mpr ⟨isBrace_of_isPlain (isPlain_code m), ih⟩⟩
  | bare hcode hl ih => exact noBrace_cons.mpr ⟨rfl, ih⟩
  | text hne hrun hend hl ih =>
    exact noBrace_append.mpr ⟨fun c hc => isBrace_of_isPlain (hrun c hc), ih⟩

/-- A run in front of a question mark, or of the end, is one text piece. -/
theorem ofText_run_append {run l : List Char} (hne : run ≠ []) (hrun : ∀ c ∈ run, isPlain c = true)
    (hend : ∀ c, l.head? = some c → c = '?') (hl : NoBrace l) :
    ofText (run ++ l) = text (String.ofList run) :: ofText l := by
  induction run with
  | nil => exact absurd rfl hne
  | cons c run ih =>
    obtain ⟨hc, hrun⟩ := List.forall_mem_cons.mp hrun
    have htail : NoBrace (run ++ l) :=
      noBrace_append.mpr ⟨fun d hd => isBrace_of_isPlain (hrun d hd), hl⟩
    rw [List.cons_append, ofText_plain_cons hc htail]
    cases run with
    | cons d run => rw [ih (List.cons_ne_nil d run) hrun, joinPlain, String.toList_ofList]
    | nil =>
      -- What follows begins with a marker or not at all, so there is no text piece to join.
      have hspell := spelling_ofText hl
      rw [List.nil_append]
      generalize ofText l = pieces at hspell ⊢
      cases hspell with
      | nil => rfl
      | coded m _ => rfl
      | bare _ _ => rfl
      | @text run _ _ hne hplain _ _ =>
        obtain ⟨d, run, rfl⟩ := List.exists_cons_of_ne_nil hne
        exact absurd (hend d rfl) (ne_mark_of_isPlain (hplain d List.mem_cons_self))

/-- **A text spells one list of pieces,** the one that it is read as. -/
theorem Spelling.eq_ofText {pieces : List Piece} {l : List Char} (h : Spelling pieces l) :
    pieces = ofText l := by
  induction h with
  | nil => rw [ofText, Token.scan.eq_def]; rfl
  | coded m hl ih => rw [ofText, Token.scan_coded (Marker.ofChar?_code m), ih]; rfl
  | bare hcode hl ih => rw [ofText, Token.scan_bare hcode, ih]; rfl
  | text hne hrun hend hl ih => rw [ofText_run_append hne hrun hend hl.noBrace, ih]

end Piece

/-! ## Segments -/

/-- What is known of a text that is read from its end. -/
def outlook (text : List Char) : Outlook :=
  (Token.scan text).foldr (fun token ahead => ahead.cons token) Outlook.finished

namespace Segment

/-- The segments of a text. -/
def ofText (text : List Char) : List Segment := (outlook text).segments

/-- Parsing a template gives the segments of its text. -/
theorem segments_parse (source : String) :
    (Template.parse source).segments = ofText source.toList := rfl

/-- Units that are no braces are pieces in front of what follows. -/
theorem foldr_of_isSome_piece? (tokens : List Token) (h : ∀ token ∈ tokens, token.piece?.isSome)
    (ahead : Outlook) :
    tokens.foldr (fun token ahead => ahead.cons token) ahead
      = { ahead with pieces := tokens.filterMap Token.piece? ++ ahead.pieces } := by
  induction tokens with
  | nil => rfl
  | cons token tokens ih =>
    obtain ⟨htoken, htokens⟩ := List.forall_mem_cons.mp h
    rw [List.foldr_cons, ih htokens]
    cases token with
    | run content => rfl
    | marker m => rfl
    | openBrace => exact absurd htoken (by decide)
    | closeBrace => exact absurd htoken (by decide)

/-- Ahead of a text without braces there are its pieces, and no closing brace. -/
theorem outlook_of_noBrace {l : List Char} (hl : NoBrace l) :
    outlook l = ⟨Piece.ofText l, false, []⟩ := by
  rw [outlook, foldr_of_isSome_piece? _ (Token.isSome_piece?_of_noBrace hl), Piece.ofText,
    Outlook.finished, List.append_nil]

/-- Up to the next brace there are the pieces of what stands before it. -/
theorem outlook_append_brace {l : List Char} {b : Char} (hl : NoBrace l) (hb : isBrace b = true)
    (r : List Char) :
    outlook (l ++ b :: r)
      = { (outlook r).cons (Token.ofBrace b) with
          pieces := Piece.ofText l ++ ((outlook r).cons (Token.ofBrace b)).pieces } := by
  rw [outlook, Token.scan_append_brace hb, List.foldr_append, List.foldr_cons,
    foldr_of_isSome_piece? _ (Token.isSome_piece?_of_noBrace hl)]
  rfl

/-- The first brace says what is ahead. -/
theorem closes_outlook (text : List Char) :
    (outlook text).closes = true ↔ firstBrace text = some '}' := by
  rcases noBrace_or_cut text with hl | ⟨l, b, r, rfl, hl, hb⟩
  · rw [outlook_of_noBrace hl, firstBrace_of_noBrace hl]
    simp
  · rw [outlook_append_brace hl hb, firstBrace_append hl, firstBrace_cons_of_isBrace hb]
    rcases eq_of_isBrace hb with rfl | rfl
    · simp only [Token.ofBrace, if_true, Outlook.cons]
      split <;> simp
    · simp [Token.ofBrace, Outlook.cons]

/-- **A text without braces has the segments of its pieces.** -/
theorem ofText_plain {l : List Char} (hl : NoBrace l) :
    ofText l = (Piece.ofText l).map .piece := by
  rw [ofText, outlook_of_noBrace hl, Outlook.segments]
  simp

/-- **A closing brace that nothing opens is text.** -/
theorem ofText_closing {l : List Char} (hl : NoBrace l) (r : List Char) :
    ofText (l ++ '}' :: r)
      = (Piece.ofText l).map .piece ++ .piece (.text "\x7d") :: ofText r := by
  rw [ofText, outlook_append_brace hl rfl]
  simp [Token.ofBrace, Outlook.cons, Outlook.segments, ofText]

/-- **An opening brace that the next brace does not close is text.** -/
theorem ofText_opening {l r : List Char} (hl : NoBrace l) (hr : firstBrace r ≠ some '}') :
    ofText (l ++ '{' :: r)
      = (Piece.ofText l).map .piece ++ .piece (.text "\x7b") :: ofText r := by
  have hcloses : (outlook r).closes = false := by
    simpa using mt (closes_outlook r).mp hr
  rw [ofText, outlook_append_brace hl rfl]
  simp [Token.ofBrace, Outlook.cons, Outlook.segments, ofText, hcloses]

/-- **What stands between two braces that belong together is a block.** -/
theorem ofText_block {l body : List Char} (hl : NoBrace l) (hbody : NoBrace body) (r : List Char) :
    ofText (l ++ '{' :: (body ++ '}' :: r))
      = (Piece.ofText l).map .piece ++ .block (Piece.ofText body) :: ofText r := by
  rw [ofText, outlook_append_brace hl rfl, outlook_append_brace hbody rfl]
  simp [Token.ofBrace, Outlook.cons, Outlook.segments, ofText]

end Segment

/-! ## The head of a text -/

namespace Token

/-- In front of a text that does not begin with a plain character, a plain character is a run by
itself. -/
theorem consPlain_scan_of_stop (c : Char) {l : List Char}
    (hstop : ∀ d, l.head? = some d → isPlain d = false) :
    consPlain c (scan l) = run [c] :: scan l := by
  induction l using text_induction with
  | nil => rfl
  | brace b l hb ih =>
    rw [scan_brace hb, ofBrace]
    split <;> rfl
  | coded m l ih =>
    rw [scan_coded (Marker.ofChar?_code m)]
    rfl
  | bare l hl ih =>
    rw [scan_bare hl]
    rfl
  | plain d l hd ih => exact absurd (hstop d rfl) (by rw [hd]; decide)

/-- A maximal run of plain characters is one unit. -/
theorem scan_run {content l : List Char} (hne : content ≠ [])
    (hrun : ∀ c ∈ content, isPlain c = true)
    (hstop : ∀ d, l.head? = some d → isPlain d = false) :
    scan (content ++ l) = run content :: scan l := by
  induction content with
  | nil => exact absurd rfl hne
  | cons c content ih =>
    obtain ⟨hc, hrest⟩ := List.forall_mem_cons.mp hrun
    rw [List.cons_append, scan_plain hc]
    by_cases hempty : content = []
    · rw [hempty, List.nil_append, consPlain_scan_of_stop c hstop]
    · rw [ih hempty hrest, consPlain]

end Token

namespace Segment

/-- A token that is scanned first comes first in the outlook. -/
theorem outlook_of_scan {text rest : List Char} {token : Token}
    (h : Token.scan text = token :: Token.scan rest) :
    outlook text = (outlook rest).cons token := by
  unfold outlook
  rw [h, List.foldr_cons]

/-- A coded marker is a segment of its own. -/
theorem ofText_coded (m : Marker) (l : List Char) :
    ofText ('?' :: m.code :: l) = .piece (.marker m) :: ofText l := by
  unfold ofText
  rw [outlook_of_scan (Token.scan_coded (Marker.ofChar?_code m) l)]
  rfl

theorem ofText_bare {l : List Char} (hl : Uncoded l) :
    ofText ('?' :: l) = .piece (.marker .scalar) :: ofText l := by
  unfold ofText
  rw [outlook_of_scan (Token.scan_bare hl)]
  rfl

/-- A run of plain characters that is not continued is one text segment. -/
theorem ofText_run {content l : List Char} (hne : content ≠ [])
    (hrun : ∀ c ∈ content, isPlain c = true)
    (hstop : ∀ d, l.head? = some d → isPlain d = false) :
    ofText (content ++ l) = .piece (.text (String.ofList content)) :: ofText l := by
  unfold ofText
  rw [outlook_of_scan (Token.scan_run hne hrun hstop)]
  rfl

end Segment

/-! ## Layouts -/

/-- The layout of a text: what its first brace is, and the layout of what comes after it. -/
inductive Layout : List Char → Prop
  /-- No brace at all. -/
  | plain {l : List Char} (hl : NoBrace l) : Layout l
  /-- A closing brace with nothing open. -/
  | closing {l r : List Char} (hl : NoBrace l) (hr : Layout r) : Layout (l ++ '}' :: r)
  /-- An opening brace that the next brace does not close. -/
  | opening {l r : List Char} (hl : NoBrace l) (hopen : firstBrace r ≠ some '}') (hr : Layout r) :
    Layout (l ++ '{' :: r)
  /-- A block. -/
  | block {l body r : List Char} (hl : NoBrace l) (hbody : NoBrace body) (hr : Layout r) :
    Layout (l ++ '{' :: (body ++ '}' :: r))

/-- **Every text has a layout.** The induction is on the length: an opening brace looks ahead to the
next one, and a block is left by two braces at once. -/
theorem Layout.of (text : List Char) : Layout text := by
  induction h : text.length using Nat.strongRecOn generalizing text with
  | _ n ih =>
    -- The first brace decides the constructor, an opening one together with the brace after it.
    rcases noBrace_or_cut text with hl | ⟨l, b, r, rfl, hl, hb⟩
    · exact Layout.plain hl
    · have hr : r.length < n := by rw [← h]; simp; omega
      rcases eq_of_isBrace hb with rfl | rfl
      · by_cases hopen : firstBrace r = some '}'
        · rcases noBrace_or_cut r with hnone | ⟨body, c, rest, rfl, hbody, hc⟩
          · rw [firstBrace_of_noBrace hnone] at hopen
            exact absurd hopen (by simp)
          · rw [firstBrace_append hbody, firstBrace_cons_of_isBrace hc] at hopen
            obtain rfl : c = '}' := Option.some.inj hopen
            have hrest : rest.length < n := by simp at hr; omega
            exact Layout.block hl hbody (ih _ hrest rest rfl)
        · exact Layout.opening hl hopen (ih _ hr r rfl)
      · exact Layout.closing hl (ih _ hr r rfl)

end SqlTemplate
