import SqlTemplate.Proofs.Substitution
import SqlTemplate.Proofs.Template.Layout
import Mathlib.Data.List.Basic

/-!
Markers and blocks by their places in the template text.

Everything here is said of a text and a position in it, without tokens, pieces or an order in which
the text is read: how many question marks stand before the position, which marker a question mark
is, which brace is the nearest on either side. A flat span is an opening brace with a closing brace
after it and no brace between them.

`readAt` gives each position its contribution and leaves open what a marker and a plain character
contribute; on a stretch without braces the contributions are those of its pieces
(`flatMap_readAt`). That induction is made once, here, and serves every reading of a template by
positions.
-/

set_option autoImplicit false

namespace SqlTemplate

variable {β : Type}

/-! ## Positions -/

/-- The last brace of a text. -/
def lastBrace (text : List Char) : Option Char := text.reverse.find? isBrace

/-- The nearest brace to the left of a position. -/
def braceBefore (text : List Char) (i : Nat) : Option Char := lastBrace (text.take i)

/-- The nearest brace to the right of a position. -/
def braceAfter (text : List Char) (i : Nat) : Option Char := firstBrace (text.drop (i + 1))

/-- How many question marks stand to the left of a position. -/
def marksBefore (text : List Char) (i : Nat) : Nat := (text.take i).count '?'

/-- The marker that a question mark at a position is, by the character after it. -/
def markerAt (text : List Char) (i : Nat) : Marker :=
  ((text[i + 1]?).bind Marker.ofChar?).getD .scalar

/-- Whether the character at a position is the type code of a marker. -/
def isCodeAt (text : List Char) (i : Nat) : Bool :=
  (text.take i).getLast? == some '?' && ((text[i]?).bind Marker.ofChar?).isSome

/-- Whether the nearest braces around a position are an opening and a closing one. -/
def isInside (text : List Char) (i : Nat) : Bool :=
  braceBefore text i == some '{' && braceAfter text i == some '}'

/-- Whether a position holds a brace that delimits a block: an opening one that the next brace
closes, or a closing one that the brace before it opens. -/
def isDelimiterAt (text : List Char) (i : Nat) : Bool :=
  (text[i]? == some '{' && braceAfter text i == some '}')
    || (text[i]? == some '}' && braceBefore text i == some '{')

/-- The positions of the question marks, from left to right. -/
def markPositions (text : List Char) : List Nat :=
  (List.range text.length).filter fun i => text[i]? == some '?'

/-- The positions of marks are those that hold a question mark. -/
theorem mem_markPositions {text : List Char} {i : Nat} :
    i ∈ markPositions text ↔ text[i]? = some '?' := by
  rw [markPositions, List.mem_filter, List.mem_range, beq_iff_eq]
  exact and_iff_right_of_imp fun h => (List.getElem?_eq_some_iff.mp h).1

/-- A type code stands right behind a question mark. -/
theorem isCodeAt_iff {text : List Char} {i : Nat} {c : Char} (hi : text[i]? = some c) :
    isCodeAt text i = true ↔ (text.take i).getLast? = some '?' ∧ (Marker.ofChar? c).isSome := by
  rw [isCodeAt, hi, Option.bind_some, Bool.and_eq_true, beq_iff_eq]

theorem getLast?_take_succ {text : List Char} {i : Nat} (hi : i < text.length) :
    (text.take (i + 1)).getLast? = text[i]? := by
  rw [List.take_add_one, List.getElem?_eq_getElem hi, Option.toList_some, List.getLast?_concat]

/-- An opening brace at `a`, a closing one at `b`, and none between them. -/
structure FlatSpan (text : List Char) (a b : Nat) : Prop where
  lt : a < b
  opens : text[a]? = some '{'
  closes : text[b]? = some '}'
  between : ∀ i < b, a < i → (text[i]?).any isBrace = false

instance (text : List Char) (a b : Nat) : Decidable (FlatSpan text a b) :=
  decidable_of_iff
    (a < b ∧ text[a]? = some '{' ∧ text[b]? = some '}'
      ∧ ∀ i < b, a < i → (text[i]?).any isBrace = false)
    ⟨fun ⟨h1, h2, h3, h4⟩ => ⟨h1, h2, h3, h4⟩, fun ⟨h1, h2, h3, h4⟩ => ⟨h1, h2, h3, h4⟩⟩

/-- The text strictly between two positions. -/
def textBetween (text : List Char) (a b : Nat) : List Char := (text.take b).drop (a + 1)

/-! ## A position that cuts a text in two -/

section Cut

variable (pre post : List Char) (c : Char)

@[simp] theorem getElem?_cut : (pre ++ c :: post)[pre.length]? = some c := by simp

@[simp] theorem take_cut : (pre ++ c :: post).take pre.length = pre := List.take_left

@[simp] theorem drop_cut : (pre ++ c :: post).drop (pre.length + 1) = post := by
  rw [List.drop_append, List.drop_of_length_le (Nat.le_succ _), Nat.add_sub_cancel_left]
  rfl

/-- The brace before the cut is the last one of the first part. -/
@[simp] theorem braceBefore_cut : braceBefore (pre ++ c :: post) pre.length = lastBrace pre := by
  rw [braceBefore, take_cut]

/-- The brace after the cut is the first one of the last part. -/
@[simp] theorem braceAfter_cut : braceAfter (pre ++ c :: post) pre.length = firstBrace post := by
  rw [braceAfter, drop_cut]

/-- The marks before the cut are those of the first part. -/
@[simp] theorem marksBefore_cut : marksBefore (pre ++ c :: post) pre.length = pre.count '?' := by
  rw [marksBefore, take_cut]

/-- The marker at the cut is told by the character behind it. -/
@[simp] theorem markerAt_cut :
    markerAt (pre ++ c :: post) pre.length = ((post.head?).bind Marker.ofChar?).getD .scalar := by
  rw [markerAt, List.getElem?_append_right (Nat.le_add_right _ _), Nat.add_sub_cancel_left,
    List.getElem?_cons_succ, List.head?_eq_getElem?]

/-- A character is a type code if a question mark stands in front of it. -/
@[simp] theorem isCodeAt_cut :
    isCodeAt (pre ++ c :: post) pre.length
      = (pre.getLast? == some '?' && (Marker.ofChar? c).isSome) := by
  rw [isCodeAt, take_cut, getElem?_cut, Option.bind_some]

end Cut

/-- A text can be cut at any of its positions. -/
theorem eq_cut {text : List Char} {i : Nat} {c : Char} (h : text[i]? = some c) :
    text = text.take i ++ c :: text.drop (i + 1) := by
  obtain ⟨hi, rfl⟩ := List.getElem?_eq_some_iff.mp h
  rw [← List.drop_eq_getElem_cons hi, List.take_append_drop]

/-! ## Nearest braces -/

/-- The last brace of a text is the one that no other follows. -/
theorem lastBrace_append_cons {b : Char} {s : List Char} (hb : isBrace b = true) (hs : NoBrace s)
    (l : List Char) : lastBrace (l ++ b :: s) = some b := by
  have hs' : NoBrace s.reverse := fun c hc => hs c (List.mem_reverse.mp hc)
  have hfirst := firstBrace_append hs' (b :: l.reverse)
  rw [firstBrace_cons_of_isBrace hb] at hfirst
  rw [lastBrace, List.reverse_append, List.reverse_cons, List.append_assoc]
  exact hfirst

/-- A stretch without braces at the end does not change the last one. -/
theorem lastBrace_append {s : List Char} (hs : NoBrace s) (l : List Char) :
    lastBrace (l ++ s) = lastBrace l := by
  have hs' : NoBrace s.reverse := fun c hc => hs c (List.mem_reverse.mp hc)
  rw [lastBrace, List.reverse_append]
  exact firstBrace_append hs' l.reverse

/-- In front of the first brace there is none. -/
theorem exists_cut_of_firstBrace {text : List Char} {b : Char} (h : firstBrace text = some b) :
    ∃ l r, text = l ++ b :: r ∧ NoBrace l := by
  obtain ⟨-, l, r, htext, hl⟩ := List.find?_eq_some_iff_append.mp h
  exact ⟨l, r, htext, fun c hc => by simpa using hl c hc⟩

/-- Behind the last brace there is none. -/
theorem exists_cut_of_lastBrace {text : List Char} {b : Char} (h : lastBrace text = some b) :
    ∃ l r, text = l ++ b :: r ∧ NoBrace r := by
  obtain ⟨l, r, hreverse, hl⟩ := exists_cut_of_firstBrace h
  refine ⟨r.reverse, l.reverse, ?_, fun c hc => hl c (List.mem_reverse.mp hc)⟩
  rw [← List.reverse_reverse text, hreverse, List.reverse_append, List.reverse_cons,
    List.append_assoc, List.singleton_append]

/-! ## Stretches without braces -/

section Stretch

variable {pre l post : List Char} {i : Nat}

/-- At a position inside a stretch there is a character of it. -/
theorem exists_getElem?_stretch (post : List Char) (hpre : pre.length ≤ i)
    (hi : i < pre.length + l.length) : ∃ c ∈ l, (pre ++ (l ++ post))[i]? = some c := by
  have hk : i - pre.length < l.length := by omega
  refine ⟨l[i - pre.length], List.getElem_mem hk, ?_⟩
  rw [List.getElem?_append_right hpre, List.getElem?_append_left hk, List.getElem?_eq_getElem hk]

/-- All positions of a stretch without braces have the same braces around them. -/
theorem isInside_stretch (hl : NoBrace l) (hpre : pre.length ≤ i) (hi : i < pre.length + l.length) :
    isInside (pre ++ (l ++ post)) i
      = (lastBrace pre == some '{' && firstBrace post == some '}') := by
  obtain ⟨k, rfl⟩ := Nat.exists_eq_add_of_le hpre
  have hk : k < l.length := by omega
  obtain ⟨left, right, hcut, hleft⟩ : ∃ left right, l = left ++ l[k] :: right ∧ left.length = k :=
    ⟨l.take k, l.drop (k + 1), eq_cut (List.getElem?_eq_getElem hk), by simp; omega⟩
  generalize l[k] = c at hcut
  subst hcut
  obtain ⟨hleft', hright⟩ := noBrace_append.mp hl
  have hsplit : pre ++ (left ++ c :: right ++ post) = (pre ++ left) ++ c :: (right ++ post) := by
    simp
  have hlen : pre.length + k = (pre ++ left).length := by simp [hleft]
  rw [isInside, hsplit, hlen, braceBefore_cut, braceAfter_cut, lastBrace_append hleft',
    firstBrace_append (noBrace_cons.mp hright).2]

/-- The first brace from a stretch without braces on lies past the stretch. -/
theorem le_of_isBrace {b : Char} (hb : isBrace b = true) (hl : NoBrace l) (hpre : pre.length ≤ i)
    (hi : (pre ++ (l ++ post))[i]? = some b) : pre.length + l.length ≤ i := by
  by_contra hlt
  obtain ⟨c, hc, hget⟩ := exists_getElem?_stretch (l := l) post hpre (by omega)
  obtain rfl : b = c := Option.some.inj (hi.symm.trans hget)
  exact absurd (hl b hc) (by rw [hb]; decide)

end Stretch

/-! ## Flat spans -/

/-- A flat span cuts a text in three. -/
theorem FlatSpan.exists_cut {text : List Char} {a b : Nat} (h : FlatSpan text a b) :
    ∃ pre body post, text = pre ++ '{' :: (body ++ '}' :: post) ∧ NoBrace body
      ∧ a = pre.length ∧ b = pre.length + 1 + body.length := by
  obtain ⟨hlt, hopens, hcloses, hbetween⟩ := h
  have ha : a < text.length := (List.getElem?_eq_some_iff.mp hopens).1
  have hb : b < text.length := (List.getElem?_eq_some_iff.mp hcloses).1
  -- The closing brace is looked up behind the opening one.
  have hrest : (text.drop (a + 1))[b - (a + 1)]? = some '}' := by
    rw [List.getElem?_drop, Nat.add_sub_cancel' hlt, hcloses]
  refine ⟨text.take a, (text.drop (a + 1)).take (b - (a + 1)), text.drop (b + 1), ?_, ?_, ?_, ?_⟩
  · have hcut := eq_cut hrest
    rw [List.drop_drop, show a + 1 + (b - (a + 1) + 1) = b + 1 by omega] at hcut
    rw [← hcut]
    exact eq_cut hopens
  · intro c hc
    obtain ⟨i, hi, rfl⟩ := List.mem_iff_getElem.mp hc
    rw [List.length_take, List.length_drop] at hi
    have hnone := hbetween (a + 1 + i) (by omega) (by omega)
    rw [List.getElem?_eq_getElem (by omega), Option.any_some] at hnone
    rw [List.getElem_take, List.getElem_drop]
    exact hnone
  · rw [List.length_take, Nat.min_eq_left (Nat.le_of_lt ha)]
  · rw [List.length_take, List.length_take, List.length_drop]
    omega

section Span

variable {body : List Char} (hbody : NoBrace body) (pre post : List Char)

theorem append_span :
    pre ++ '{' :: (body ++ '}' :: post) = (pre ++ '{' :: body) ++ '}' :: post := by
  rw [List.append_assoc, List.cons_append]

theorem length_append_span : (pre ++ '{' :: body).length = pre.length + 1 + body.length := by
  rw [List.length_append, List.length_cons]
  omega

include hbody

/-- Two braces without a brace between them make a flat span. -/
theorem flatSpan_cut :
    FlatSpan (pre ++ '{' :: (body ++ '}' :: post)) pre.length (pre.length + 1 + body.length) := by
  refine ⟨by omega, getElem?_cut _ _ _, ?_, ?_⟩
  · rw [append_span, ← length_append_span, getElem?_cut]
  · intro i hi hlt
    have hlen : (pre ++ ['{']).length = pre.length + 1 := List.length_append
    obtain ⟨c, hc, hget⟩ := @exists_getElem?_stretch (pre ++ ['{']) body i ('}' :: post)
      (by omega) (by omega)
    rw [List.append_assoc, List.singleton_append] at hget
    rw [hget, Option.any_some]
    exact hbody c hc

omit hbody in
/-- The text of a flat span is what stands between its braces. -/
theorem textBetween_cut :
    textBetween (pre ++ '{' :: (body ++ '}' :: post)) pre.length (pre.length + 1 + body.length)
      = body := by
  rw [textBetween, append_span, ← length_append_span, take_cut, drop_cut]

end Span

namespace FlatSpan

variable {text : List Char} {a b i : Nat}

theorem braceAfter_eq (h : FlatSpan text a b) : braceAfter text a = some '}' := by
  obtain ⟨pre, body, post, rfl, hbody, rfl, rfl⟩ := h.exists_cut
  rw [braceAfter_cut, firstBrace_append hbody, firstBrace_cons_of_isBrace rfl]

theorem braceBefore_eq (h : FlatSpan text a b) : braceBefore text b = some '{' := by
  obtain ⟨pre, body, post, rfl, hbody, rfl, rfl⟩ := h.exists_cut
  rw [append_span, ← length_append_span, braceBefore_cut, lastBrace_append_cons rfl hbody]

/-- Between the two braces both are the nearest ones. -/
theorem isInside_of_lt (h : FlatSpan text a b) (ha : a < i) (hb : i < b) :
    isInside text i = true := by
  obtain ⟨pre, body, post, rfl, hbody, rfl, rfl⟩ := h.exists_cut
  have hlen : (pre ++ ['{']).length = pre.length + 1 := List.length_append
  have hstretch := @isInside_stretch (pre ++ ['{']) body ('}' :: post) i hbody (by omega) (by omega)
  rw [List.append_assoc, List.singleton_append, lastBrace_append_cons rfl noBrace_nil,
    firstBrace_cons_of_isBrace rfl] at hstretch
  exact hstretch

/-- A flat span begins with a delimiter. -/
theorem isDelimiterAt_left (h : FlatSpan text a b) : isDelimiterAt text a = true := by
  rw [isDelimiterAt, h.opens, h.braceAfter_eq]
  rfl

theorem isDelimiterAt_right (h : FlatSpan text a b) : isDelimiterAt text b = true := by
  rw [isDelimiterAt, h.closes, h.braceBefore_eq]
  rfl

/-- A brace that delimits a block is one end of a flat span. -/
theorem exists_of_isDelimiterAt (h : isDelimiterAt text i = true) : ∃ a b, FlatSpan text a b := by
  rw [isDelimiterAt, Bool.or_eq_true, Bool.and_eq_true, Bool.and_eq_true, beq_iff_eq, beq_iff_eq,
    beq_iff_eq, beq_iff_eq] at h
  rcases h with ⟨hopens, hafter⟩ | ⟨hcloses, hbefore⟩
  · obtain ⟨body, post, hpost, hbody⟩ := exists_cut_of_firstBrace hafter
    have htext := eq_cut hopens
    rw [hpost] at htext
    exact ⟨_, _, htext ▸ flatSpan_cut hbody _ post⟩
  · obtain ⟨pre, body, hpre, hbody⟩ := exists_cut_of_lastBrace hbefore
    have htext := eq_cut hcloses
    rw [hpre, ← append_span] at htext
    exact ⟨_, _, htext ▸ flatSpan_cut hbody pre _⟩

/-- Two flat spans that share a position are the same. -/
theorem eq_of_covers {a' b' : Nat} (h : FlatSpan text a b) (h' : FlatSpan text a' b') (ha : a ≤ i)
    (hb : i ≤ b) (ha' : a' ≤ i) (hb' : i ≤ b') : a = a' ∧ b = b' := by
  -- An opening brace of one span cannot lie strictly inside the other, nor at its end.
  have hopen : ∀ {a b a' b'}, FlatSpan text a b → FlatSpan text a' b' → a' ≤ b → ¬ a < a' := by
    intro a b a' b' h h' hle hlt
    rcases Nat.lt_or_eq_of_le hle with hlt' | rfl
    · have hnone := h.between a' hlt' hlt
      rw [h'.opens] at hnone
      exact absurd hnone (by decide)
    · exact absurd (h.closes.symm.trans h'.opens) (by decide)
  have heq : a = a' := by
    have h1 := hopen h h' (by omega)
    have h2 := hopen h' h (by omega)
    omega
  subst heq
  -- From the same opening brace the closing one is the next brace.
  have hclose : ∀ {b b'}, FlatSpan text a b → FlatSpan text a b' → ¬ b < b' := by
    intro b b' h h' hlt
    have hnone := h'.between b hlt h.lt
    rw [h.closes] at hnone
    exact absurd hnone (by decide)
  have h1 := hclose h h'
  have h2 := hclose h' h
  exact ⟨rfl, by omega⟩

end FlatSpan

/-! ## Reading a stretch by its positions -/

section Read

variable (mark : Nat → Marker → List β) (plain : Char → List β)

/-- What position `i` contributes: a question mark what its marker does, the type code of a marker
and a delimiter of a block nothing, and every other character what a plain one does. -/
def readAt (text : List Char) (i : Nat) : List β :=
  match text[i]? with
  | none => []
  | some c =>
    if c = '?' then mark (marksBefore text i) (markerAt text i)
    else if isCodeAt text i || isDelimiterAt text i then []
    else plain c

/-- When plain characters contribute nothing, only question marks do. -/
theorem mem_readAt {text : List Char} {i : Nat} {x : β} :
    x ∈ readAt mark (fun _ => []) text i
      ↔ text[i]? = some '?' ∧ x ∈ mark (marksBefore text i) (markerAt text i) := by
  rw [readAt]
  cases text[i]? with
  | none => simp
  | some c =>
    by_cases hc : c = '?'
    · simp [hc]
    · simp [hc]

/-- A question mark contributes what its marker does, under its number. -/
theorem readAt_of_mark {text : List Char} {i : Nat} (h : text[i]? = some '?') :
    readAt mark plain text i = mark (marksBefore text i) (markerAt text i) := by
  rw [readAt, h]
  rfl

/-- A position without a question mark contributes what its character does, or nothing. -/
theorem readAt_of_ne_mark {text : List Char} {i : Nat} (h : text[i]? ≠ some '?') :
    readAt mark plain text i = []
      ∨ ∃ c, text[i]? = some c ∧ readAt mark plain text i = plain c := by
  rw [readAt]
  cases hget : text[i]? with
  | none => exact Or.inl rfl
  | some c =>
    have hc : c ≠ '?' := fun hc => h (by rw [hget, hc])
    dsimp only
    rw [if_neg hc]
    split
    · exact Or.inl rfl
    · exact Or.inr ⟨c, rfl, rfl⟩

/-- A delimiter contributes nothing. -/
theorem readAt_of_isDelimiterAt {text : List Char} {i : Nat} (h : isDelimiterAt text i = true) :
    readAt mark plain text i = [] := by
  rw [readAt]
  cases hget : text[i]? with
  | none => rfl
  | some c =>
    have hc : c ≠ '?' := by
      rintro rfl
      rw [isDelimiterAt, hget] at h
      exact absurd h (by simp)
    simp only [if_neg hc, h, Bool.or_true, if_true]

/-- What a position contributes can be changed part by part. -/
theorem map_readAt {γ : Type} (f : β → γ) (text : List Char) (i : Nat) :
    (readAt mark plain text i).map f
      = readAt (fun k m => (mark k m).map f) (fun c => (plain c).map f) text i := by
  rw [readAt, readAt]
  cases text[i]? with
  | none => rfl
  | some c =>
    dsimp only
    split_ifs <;> rfl

/-- What a piece contributes, if it is marker `k` or has no marker. -/
def Piece.read (k : Nat) : Piece → List β
  | text content => content.toList.flatMap plain
  | marker m => mark k m

/-- What pieces in a row contribute, if the first marker is number `k`. -/
def Piece.readAll (k : Nat) (pieces : List Piece) : List β :=
  (mapFrom Piece.markers (Piece.read mark plain) k pieces).flatten

@[simp] theorem Piece.readAll_nil (k : Nat) : Piece.readAll mark plain k [] = [] := rfl

@[simp] theorem Piece.readAll_text (k : Nat) (content : String) (pieces : List Piece) :
    Piece.readAll mark plain k (.text content :: pieces)
      = content.toList.flatMap plain ++ Piece.readAll mark plain k pieces := rfl

@[simp] theorem Piece.readAll_marker (k : Nat) (m : Marker) (pieces : List Piece) :
    Piece.readAll mark plain k (.marker m :: pieces)
      = mark k m ++ Piece.readAll mark plain (k + 1) pieces := rfl

/-- The positions of a stretch are the first one and those of the rest. -/
theorem flatMap_range'_cons (f : Nat → List β) (pre : List Char) (c : Char) (l : List Char) :
    (List.range' pre.length (c :: l).length).flatMap f
      = f pre.length ++ (List.range' (pre ++ [c]).length l.length).flatMap f := by
  rw [List.length_cons, List.range'_succ, List.flatMap_cons, List.length_append,
    List.length_singleton]

variable {mark plain}

/-- At a cut, the mark is told by what stands behind it and numbered by what stands before it. -/
theorem readAt_mark (pre post : List Char) :
    readAt mark plain (pre ++ '?' :: post) pre.length
      = mark (pre.count '?') (((post.head?).bind Marker.ofChar?).getD .scalar) := by
  rw [readAt, getElem?_cut]
  simp only [if_true, marksBefore_cut, markerAt_cut]

/-- Only braces are delimiters. -/
theorem isDelimiterAt_of_not_isBrace {text : List Char} {i : Nat} {c : Char}
    (hget : text[i]? = some c) (hc : isBrace c = false) : isDelimiterAt text i = false := by
  have hopen : c ≠ '{' := fun h => by subst h; exact absurd hc (by decide)
  have hclose : c ≠ '}' := fun h => by subst h; exact absurd hc (by decide)
  simp [isDelimiterAt, hget, hopen, hclose]

/-- The type code of a marker contributes nothing of its own. -/
theorem readAt_code (pre post : List Char) (m : Marker) :
    readAt mark plain (pre ++ '?' :: m.code :: post) (pre ++ ['?']).length = [] := by
  have hne : m.code ≠ '?' := ne_mark_of_isPlain (isPlain_code m)
  rw [List.append_cons, readAt, getElem?_cut]
  simp only [if_neg hne, isCodeAt_cut, List.getLast?_append, Marker.ofChar?_code]
  simp

/-- A plain character is one that no question mark claims as its code. -/
theorem readAt_plain {pre post : List Char} {c : Char} (hc : isPlain c = true)
    (hsep : pre.getLast? = some '?' → Marker.ofChar? c = none) :
    readAt mark plain (pre ++ c :: post) pre.length = plain c := by
  have hcode : isCodeAt (pre ++ c :: post) pre.length = false := by
    rw [isCodeAt_cut]
    by_cases hlast : pre.getLast? = some '?'
    · rw [hsep hlast]; simp
    · simp [hlast]
  rw [readAt, getElem?_cut]
  simp only [if_neg (ne_mark_of_isPlain hc), hcode,
    isDelimiterAt_of_not_isBrace (getElem?_cut pre post c) (isBrace_of_isPlain hc)]
  simp

variable (mark plain)

/-- A run of plain characters contributes one character after the other. -/
theorem flatMap_readAt_run {run : List Char} (hrun : ∀ c ∈ run, isPlain c = true)
    (pre post : List Char) (hsep : pre.getLast? = some '?' → Uncoded (run ++ post)) :
    (List.range' pre.length run.length).flatMap (readAt mark plain (pre ++ (run ++ post)))
      = run.flatMap plain := by
  induction run generalizing pre with
  | nil => rfl
  | cons c run ih =>
    obtain ⟨hc, hrun⟩ := List.forall_mem_cons.mp hrun
    have hnext : (pre ++ [c]).getLast? = some '?' → Uncoded (run ++ post) := fun h => by
      rw [List.getLast?_concat, Option.some.injEq] at h
      exact absurd h (ne_mark_of_isPlain hc)
    have htail := ih hrun (pre ++ [c]) hnext
    rw [List.append_assoc, List.singleton_append] at htail
    rw [flatMap_range'_cons, List.cons_append, readAt_plain hc fun h => hsep h c rfl, htail,
      List.flatMap_cons]

/-- **On a stretch without braces the positions contribute what the pieces do.** The induction is on
the spelling. What it has to know of the text to the left is that the stretch does not begin with a
code that a question mark there claims, and of the text to the right that it does not begin with a
code that the last question mark of the stretch would claim. -/
theorem flatMap_readAt {pieces : List Piece} {l : List Char} (h : Piece.Spelling pieces l)
    (pre : List Char) {post : List Char} (hpost : Uncoded post)
    (hsep : pre.getLast? = some '?' → Uncoded (l ++ post)) :
    (List.range' pre.length l.length).flatMap (readAt mark plain (pre ++ (l ++ post)))
      = Piece.readAll mark plain (pre.count '?') pieces := by
  induction h generalizing pre with
  | nil => rfl
  | @coded m pieces l hl ih =>
    -- The code moves to the left part; it is no question mark and claims nothing further on.
    have htail := ih (pre ++ ['?'] ++ [m.code]) fun hlast => by
      rw [List.getLast?_concat, Option.some.injEq] at hlast
      exact absurd hlast (ne_mark_of_isPlain (isPlain_code m))
    have hcount : (pre ++ ['?'] ++ [m.code]).count '?' = pre.count '?' + 1 := by
      rw [List.count_append, List.count_append, List.count_singleton_self,
        List.count_singleton, if_neg (by simpa using ne_mark_of_isPlain (isPlain_code m))]
    have hmark : readAt mark plain (pre ++ '?' :: m.code :: (l ++ post)) pre.length
        = mark (pre.count '?') m := by
      rw [readAt_mark, List.head?_cons, Option.bind_some, Marker.ofChar?_code, Option.getD_some]
    rw [List.append_assoc, List.append_assoc, List.singleton_append, List.singleton_append,
      hcount] at htail
    rw [flatMap_range'_cons, flatMap_range'_cons, List.cons_append, List.cons_append, hmark,
      readAt_code, htail, Piece.readAll_marker, List.nil_append]
  | @bare pieces l hcode hl ih =>
    -- At the end of the stretch the text after it must not begin with a code.
    have hnext : Uncoded (l ++ post) := by
      cases l with
      | nil => exact hpost
      | cons c l => exact hcode
    have htail := ih (pre ++ ['?']) fun _ => hnext
    have hmark : readAt mark plain (pre ++ '?' :: (l ++ post)) pre.length
        = mark (pre.count '?') .scalar := by
      rw [readAt_mark]
      cases h : (l ++ post).head? with
      | none => rfl
      | some c => rw [Option.bind_some, hnext c h, Option.getD_none]
    rw [List.append_assoc, List.singleton_append, List.count_append,
      List.count_singleton_self] at htail
    rw [flatMap_range'_cons, List.cons_append, hmark, htail, Piece.readAll_marker]
  | @text run pieces l hne hrun hend hl ih =>
    have hcount : run.count '?' = 0 :=
      List.count_eq_zero.mpr fun hmem => ne_mark_of_isPlain (hrun _ hmem) rfl
    have hrunRead := flatMap_readAt_run mark plain hrun pre (l ++ post) fun hlast => by
      rw [← List.append_assoc]
      exact hsep hlast
    have htail := ih (pre ++ run) fun hlast => by
      -- A question mark at the end of the run would be one of its characters.
      rw [List.getLast?_append_of_ne_nil _ hne] at hlast
      exact absurd rfl (ne_mark_of_isPlain (hrun _ (List.mem_of_getLast? hlast)))
    rw [List.append_assoc, List.count_append, hcount, Nat.add_zero] at htail
    rw [List.length_append, ← List.range'_append_1, List.flatMap_append, List.append_assoc,
      hrunRead, ← List.length_append, htail, Piece.readAll_text, String.toList_ofList]

end Read

end SqlTemplate
