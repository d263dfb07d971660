import SqlTemplate.Proofs.Format.NumberSigns
import SqlTemplate.Proofs.Rewriting

/-!
Numbers and SQL comments.

Two minus signs in a row open a comment to the end of the line. A number is written bare, in decimal
text, so its sign can meet one of the template: `7-?d` with `-5` is `7--5`. This is the only way in
which numbers open a comment. `comment_iff_signs_meet` says so of every template that has no block
and no two minus signs in a row itself.

The proof goes from position to position. What is written so far ends in a minus sign exactly if the
template does there, because no number ends in one and no type code is one.
-/

set_option autoImplicit false

namespace SqlTemplate

variable {mode : ElisionMode} {answer : Nat → String × Bool} {text : List Char} {i n : Nat}

/-! ## Templates without blocks -/

/-- A template without blocks has no flat span. -/
theorem not_flatSpan_of_blocks {source : String} (h : (Template.parse source).blocks = [])
    (a b : Nat) : ¬ FlatSpan source.toList a b := by
  obtain ⟨spans, hspans, hblocks⟩ := forall₂_blocks (Layout.of source.toList) source.toList [] rfl
  have hnil : (Segment.ofText source.toList).filterMap Segment.block? = [] := h
  rw [hnil, List.forall₂_nil_left_iff] at hblocks
  intro hspan
  have hmem := (hspans.mem_iff a b).mpr ⟨Nat.zero_le a, hspan⟩
  rw [hblocks] at hmem
  exact absurd hmem List.not_mem_nil

/-- Without flat spans, every position puts out its replacement. -/
theorem outputAt_of_not_flatSpan (h : ∀ a b, ¬ FlatSpan text a b) (i : Nat) :
    outputAt mode answer text i = replacement answer text i := by
  rw [outputAt, if_neg]
  rintro ⟨a, -, b, -, -, hspan, -⟩
  exact h a b hspan

/-- Outside markers only type codes are left out. -/
theorem replacement_of_not_flatSpan (h : ∀ a b, ¬ FlatSpan text a b) {c : Char}
    (hi : text[i]? = some c) (hc : c ≠ '?') :
    replacement answer text i = if isCodeAt text i then [] else [c] := by
  have hdelimiter : isDelimiterAt text i = false := by
    by_contra hne
    obtain ⟨a, b, hspan⟩ := FlatSpan.exists_of_isDelimiterAt (Bool.of_not_eq_false hne)
    exact h a b hspan
  rw [replacement, readAt, hi]
  simp only [if_neg hc, hdelimiter, Bool.or_false]

/-! ## Where signs meet -/

/-- What the positions before a given one are rewritten to. -/
def rewrittenBefore (mode : ElisionMode) (answer : Nat → String × Bool) (text : List Char)
    (n : Nat) : List Char :=
  (List.range n).flatMap (outputAt mode answer text)

/-- A minus sign of the template right before a marker whose text begins with one. -/
def SignsMeetAt (answer : Nat → String × Bool) (text : List Char) (i : Nat) : Prop :=
  text[i]? = some '-' ∧ text[i + 1]? = some '?'
    ∧ (answer (marksBefore text (i + 1))).1.toList.head? = some '-'

/-- Signs meet before a marker if the template ends in one there and the number begins with one. -/
theorem not_signsMeetAt_iff (hn : text[n]? = some '?') :
    (∀ i, i + 1 = n → ¬ SignsMeetAt answer text i)
      ↔ ((text.take n).getLast? = some '-' →
          (answer (marksBefore text n)).1.toList.head? ≠ some '-') := by
  have hlt : n < text.length := (List.getElem?_eq_some_iff.mp hn).1
  constructor
  · intro h hsign hhead
    cases n with
    | zero => exact absurd hsign (by simp)
    | succ i =>
      rw [getLast?_take_succ (by omega)] at hsign
      exact h i rfl ⟨hsign, hn, hhead⟩
  · rintro h i rfl ⟨hsign, -, hhead⟩
    rw [getLast?_take_succ (by omega)] at h
    exact h hsign hhead

section Signs

variable (hspans : ∀ a b, ¬ FlatSpan text a b)
  (hapart : ∀ i, text[i]? = some '?' → SignsApart (answer (marksBefore text i)).1.toList)

include hspans

/-- A character of the template does not follow a minus sign of the template as a second one. -/
theorem undashed_replacement (hsource : Undashed text) {c : Char} (hn : text[n]? = some c)
    (hc : c ≠ '?') :
    Undashed (replacement answer text n)
      ∧ ((text.take n).getLast? = some '-' → (replacement answer text n).head? ≠ some '-') := by
  rw [replacement_of_not_flatSpan hspans hn hc]
  split
  · exact ⟨List.isChain_nil, fun _ => by simp⟩
  · refine ⟨List.isChain_singleton c, ?_⟩
    intro hsign hhead
    rw [← List.take_append_drop n text, undashed_append] at hsource
    apply hsource.2.2 hsign
    rw [List.head?_drop, hn]
    exact hhead

include hapart

/-- What is written ends in a minus sign where the template does. -/
theorem getLast?_rewrittenBefore (hn : n ≤ text.length) :
    (rewrittenBefore mode answer text n).getLast? = some '-'
      ↔ (text.take n).getLast? = some '-' := by
  -- The induction is on the position: with each character something is added at the end.
  induction n with
  | zero => simp [rewrittenBefore]
  | succ n ih =>
    obtain ⟨c, hc⟩ : ∃ c, text[n]? = some c := ⟨_, List.getElem?_eq_getElem hn⟩
    rw [getLast?_take_succ hn, rewrittenBefore, flatMap_range_succ, outputAt_of_not_flatSpan hspans]
    by_cases hmark : c = '?'
    · -- No number ends in a minus sign.
      rw [hmark] at hc
      rw [replacement_mark answer hc, hc]
      obtain ⟨d, hd, hne⟩ := (hapart n hc).last_append
        ((List.range n).flatMap (outputAt mode answer text))
      rw [hd]
      simp [hne]
    · rw [replacement_of_not_flatSpan hspans hc hmark, hc]
      by_cases hcode : isCodeAt text n = true
      · -- Before a type code there is a question mark in the template, and no minus sign.
        rw [if_pos hcode, List.append_nil]
        obtain ⟨hbefore, hsome⟩ := (isCodeAt_iff hc).mp hcode
        have hlast := ih (by omega)
        rw [hbefore] at hlast
        constructor
        · intro h
          exact absurd (hlast.mp h) (by decide)
        · intro h
          rw [Option.some.inj h] at hsome
          exact absurd hsome (by decide)
      · rw [if_neg hcode, List.getLast?_concat]

/-- Two minus signs in a row are written where one of the template meets one of a number, and
nowhere else. -/
theorem undashed_rewrittenBefore (hsource : Undashed text) (hn : n ≤ text.length) :
    Undashed (rewrittenBefore mode answer text n)
      ↔ ∀ i, i + 1 < n → ¬ SignsMeetAt answer text i := by
  -- The induction is on the position; a new pair of signs can only stand at the seam.
  induction n with
  | zero =>
    refine iff_of_true List.isChain_nil ?_
    intro i hi
    omega
  | succ n ih =>
    obtain ⟨c, hc⟩ : ∃ c, text[n]? = some c := ⟨_, List.getElem?_eq_getElem hn⟩
    have hlast : (rewrittenBefore mode answer text n).getLast? = some '-'
        ↔ (text.take n).getLast? = some '-' :=
      getLast?_rewrittenBefore hspans hapart (Nat.le_of_succ_le hn)
    have hsplit : (∀ i, i + 1 < n + 1 → ¬ SignsMeetAt answer text i)
        ↔ (∀ i, i + 1 < n → ¬ SignsMeetAt answer text i)
          ∧ ∀ i, i + 1 = n → ¬ SignsMeetAt answer text i := by
      simp only [Nat.lt_succ_iff_lt_or_eq, or_imp, forall_and]
    rw [rewrittenBefore, flatMap_range_succ, undashed_append, ← rewrittenBefore,
      ih (by omega), hsplit, hlast, outputAt_of_not_flatSpan hspans]
    refine and_congr_right fun _ => ?_
    -- Only a number brings a sign that the template does not have.
    by_cases hmark : c = '?'
    · rw [hmark] at hc
      rw [replacement_mark answer hc, and_iff_right (hapart n hc).undashed,
        not_signsMeetAt_iff hc]
    · refine iff_of_true (undashed_replacement hspans hsource hc hmark) ?_
      rintro i rfl ⟨-, hnext, -⟩
      rw [hc] at hnext
      exact hmark (Option.some.inj hnext)

end Signs

/-! ## Compiling -/

/-- **Numbers open a comment only where their sign meets one of the template.** For a template that
has no block and no two minus signs in a row, and arguments that are all numbers, the SQL has two
minus signs in a row exactly if somewhere a minus sign stands right before a marker whose number is
written with one. With any escaper, elision and way of counting. -/
theorem comment_iff_signs_meet {escape : Escaper} {options : Options} {source sql : String}
    {arguments : List Value} (hblocks : (Template.parse source).blocks = [])
    (hsource : ¬ "--".toList <:+: source.toList)
    (hnumbers : ∀ v ∈ arguments, v.isNumber = true)
    (h : compile escape options source arguments = .ok sql) :
    "--".toList <:+: sql.toList
      ↔ ∃ i, source.toList[i]? = some '-' ∧ source.toList[i + 1]? = some '?'
          ∧ ∃ w, writtenAt escape arguments source.toList (i + 1) = .ok w
            ∧ w.toList.head? = some '-' := by
  obtain ⟨written, hwritten⟩ := exists_numbering fun i hi => exists_writtenAt_of_compile h hi
  -- Every argument that is served is a number, and a missing one is written as NULL.
  have hapart : ∀ i, source.toList[i]? = some '?' →
      SignsApart (written (marksBefore source.toList i)).toList := by
    intro i hi
    refine Marker.signsApart_of_format ?_ (hwritten i hi)
    rw [argumentAt]
    cases hget : arguments[marksBefore source.toList i]? with
    | none => exact Or.inr rfl
    | some v => exact Or.inl (hnumbers v (List.mem_of_getElem? hget))
  have hsql : sql.toList = rewrittenBefore options.elision
      (fun k => (written k, (argumentAt arguments k).isSkip)) source.toList
      source.toList.length := by
    rw [eq_rewritten_of_compile h hwritten, String.toList_ofList]
    rfl
  rw [hsql, ← not_iff_not, ← undashed_iff, undashed_rewrittenBefore
    (not_flatSpan_of_blocks hblocks) hapart (undashed_iff.mpr hsource) (Nat.le_refl _)]
  constructor
  · rintro hnone ⟨i, hsign, hmark, w, hw, hhead⟩
    apply hnone i (List.getElem?_eq_some_iff.mp hmark).1
    rw [hwritten (i + 1) hmark] at hw
    rw [← Except.ok.inj hw] at hhead
    exact ⟨hsign, hmark, hhead⟩
  · rintro hnone i - ⟨hsign, hmark, hhead⟩
    exact hnone ⟨i, hsign, hmark, _, hwritten (i + 1) hmark, hhead⟩

/-- The sign of a number behind a minus sign of the template. -/
theorem comment_iff_signs_meet_subtraction :
    "--".toList <:+: "SELECT 7--5".toList
      ↔ ∃ i, "SELECT 7-?d".toList[i]? = some '-' ∧ "SELECT 7-?d".toList[i + 1]? = some '?'
          ∧ ∃ w, writtenAt EscapingMode.standard.escaper [.int (-5)] "SELECT 7-?d".toList (i + 1)
              = .ok w ∧ w.toList.head? = some '-' := by
  refine @comment_iff_signs_meet _ ⟨.structural, false⟩ _ _ [.int (-5)] ?_ ?_ ?_ ?_
  · decide +kernel
  · decide +kernel
  · decide +kernel
  · decide +kernel

/-- **Numbers can open a comment.** A template without blocks, quotes and two minus signs in a row,
whose markers take numbers, does not keep two minus signs out of the SQL. -/
theorem number_opens_comment :
    ¬ ∀ (options : Options) (source sql : String) (arguments : List Value),
      (Template.parse source).blocks = [] →
      ¬ "--".toList <:+: source.toList →
      '\'' ∉ source.toList ∧ '"' ∉ source.toList ∧ '`' ∉ source.toList →
      (∀ m ∈ (Template.parse source).markers, m = .scalar ∨ m = .integer ∨ m = .float) →
      (∀ v ∈ arguments, v.isNumber = true ∧ ∀ x, v = .float x → x.isFinite = true) →
      compile EscapingMode.standard.escaper options source arguments = .ok sql →
      ¬ "--".toList <:+: sql.toList := by
  intro h
  have hmarkers : (Template.parse "SELECT 7-?d").markers = [.integer] := by decide +kernel
  refine h ⟨.structural, false⟩ "SELECT 7-?d" "SELECT 7--5" [.int (-5)] ?_ ?_ ?_ ?_ ?_ ?_ ?_
  · decide +kernel
  · decide +kernel
  · decide +kernel
  · rw [hmarkers, List.forall_mem_singleton]
    exact Or.inr (Or.inl rfl)
  · rw [List.forall_mem_singleton]
    exact ⟨rfl, nofun⟩
  · decide +kernel
  · decide +kernel

end SqlTemplate
