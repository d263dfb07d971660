import SqlTemplate.Proofs.QuoteScan
import SqlTemplate.Proofs.Rewriting

/-!
Text from arguments stays inside its literal.

A template whose own text is outside all literals at every marker and at both ends of every block is
scanned alike with arguments and without them. `quotes_contained` states this of the whole SQL,
character by character; every character carries its origin, a position of the template or an
argument.

The proof goes from position to position of the template. A position that stays moves the scan as
the template alone does, since a marker is entered and left outside. A dropped block is entered and
left outside as well, so the scan of the template may skip it (`run_output`).
-/

set_option autoImplicit false

namespace SqlTemplate

open QuoteState

/-! ## The template alone -/

/-- What a position contributes to the text of the template alone: markers are read as empty. -/
def staticAt (text : List Char) (i : Nat) : List Char :=
  readAt (fun _ _ => []) (fun c => [c]) text i

/-- Where the scan of the template alone stands at a position. -/
def templateState (mode : EscapingMode) (text : List Char) (i : Nat) : QuoteState :=
  run mode outside ((List.range i).flatMap (staticAt text))

/-- The text of a template is outside all literals at its markers and at both ends of its blocks. -/
structure QuotesSettled (mode : EscapingMode) (text : List Char) : Prop where
  marker : ∀ i, text[i]? = some '?' → templateState mode text i = outside
  blockStart : ∀ a b, FlatSpan text a b → templateState mode text a = outside
  blockEnd : ∀ a b, FlatSpan text a b → templateState mode text b = outside

instance (mode : EscapingMode) (text : List Char) : Decidable (QuotesSettled mode text) :=
  decidable_of_iff
    ((∀ i ∈ markPositions text, templateState mode text i = outside)
      ∧ ∀ a < text.length, ∀ b < text.length, FlatSpan text a b →
        templateState mode text a = outside ∧ templateState mode text b = outside)
    ⟨fun ⟨hmarks, hspans⟩ =>
      have hlt {a b} (h : FlatSpan text a b) : a < text.length ∧ b < text.length :=
        ⟨(List.getElem?_eq_some_iff.mp h.opens).1, (List.getElem?_eq_some_iff.mp h.closes).1⟩
      ⟨fun i hi => hmarks i (mem_markPositions.mpr hi),
        fun a b h => (hspans a (hlt h).1 b (hlt h).2 h).1,
        fun a b h => (hspans a (hlt h).1 b (hlt h).2 h).2⟩,
    fun h => ⟨fun i hi => h.marker i (mem_markPositions.mp hi),
      fun a _ b _ hspan => ⟨h.blockStart a b hspan, h.blockEnd a b hspan⟩⟩⟩

variable {mode : EscapingMode} {elision : ElisionMode} {answer : Nat → String × Bool}
  {text : List Char} {i a b : Nat}

/-- The state of the template goes on with the static text of a position. -/
theorem templateState_succ (mode : EscapingMode) (text : List Char) (i : Nat) :
    templateState mode text (i + 1) = run mode (templateState mode text i) (staticAt text i) := by
  rw [templateState, flatMap_range_succ, run_append]
  rfl

/-- A mark has no static text. -/
theorem staticAt_mark (h : text[i]? = some '?') : staticAt text i = [] := readAt_of_mark _ _ h

theorem replacement_of_ne_mark (answer : Nat → String × Bool) (h : text[i]? ≠ some '?') :
    replacement answer text i = staticAt text i := by
  rw [replacement, staticAt, readAt, readAt]
  cases hget : text[i]? with
  | none => rfl
  | some c =>
    have hc : c ≠ '?' := fun hc => h (by rw [hget, hc])
    simp only [if_neg hc]

/-- A block ends in the state in which it begins. -/
theorem templateState_blockEnd (h : FlatSpan text a b) :
    templateState mode text (b + 1) = templateState mode text b := by
  rw [templateState_succ, staticAt, readAt_of_isDelimiterAt _ _ h.isDelimiterAt_right]
  rfl

/-! ## With arguments -/

/-- A position that stays lies in no dropped block, and neither does the cut behind it. -/
theorem not_inside_of_not_isDropped (h : ¬ IsDropped elision answer text i)
    (hspan : FlatSpan text a b) (hdrops : elision.Drops answer text a b) : i < a ∨ b < i := by
  by_contra hinside
  exact h ((hspan.isDropped_iff (by omega) (by omega)).mpr hdrops)

/-- Positions that contribute nothing can be left out at the end. -/
theorem flatMap_range_of_nil {β : Type} {f : Nat → List β} {n : Nat} (ha : a ≤ n)
    (h : ∀ i, a ≤ i → i < n → f i = []) : (List.range n).flatMap f = (List.range a).flatMap f := by
  induction n with
  | zero => rw [Nat.le_zero.mp ha]
  | succ n ih =>
    rcases Nat.eq_or_lt_of_le ha with rfl | ha
    · rfl
    · rw [flatMap_range_succ, h n (by omega) (by omega), List.append_nil,
        ih (by omega) fun i hi hn => h i hi (by omega)]

/-- **The scan of the SQL stands where that of the template stands,** at every position that is not
past the start of a dropped block and before its end. The induction is on the position; at the end
of a dropped block it goes back to the start. -/
theorem run_output (hsettled : QuotesSettled mode text)
    (hanswer : ∀ i, text[i]? = some '?' →
      run mode outside (answer (marksBefore text i)).1.toList = outside) (hi : i ≤ text.length)
    (hout : ∀ a b, FlatSpan text a b → elision.Drops answer text a b → i ≤ a ∨ b < i) :
    run mode outside ((List.range i).flatMap (outputAt elision answer text))
      = templateState mode text i := by
  induction i using Nat.strongRecOn with
  | _ i ih =>
    cases i with
    | zero => rfl
    | succ i =>
      by_cases hdropped : IsDropped elision answer text i
      · -- The position is the closing brace of a dropped block; the scan goes on from its start.
        obtain ⟨a, ha, b, hb, hib, hspan, hdrops⟩ := hdropped
        obtain rfl : i = b := by
          rcases hout a b hspan hdrops with h | h <;> omega
        have hbefore := ih a (by omega) (by omega) fun a' b' hspan' _ => by
          by_contra hinside
          obtain ⟨rfl, -⟩ := hspan.eq_of_covers hspan' (Nat.le_refl a) ha (by omega) (by omega)
          omega
        have hnothing : ∀ j, a ≤ j → j < i + 1 → outputAt elision answer text j = [] :=
          fun j hj hji => if_pos ((hspan.isDropped_iff hj (by omega)).mpr hdrops)
        rw [flatMap_range_of_nil (by omega) hnothing, hbefore, hsettled.blockStart a i hspan,
          templateState_blockEnd hspan, hsettled.blockEnd a i hspan]
      · have hbefore := ih i (by omega) (by omega) fun a b hspan hdrops =>
          (not_inside_of_not_isDropped hdropped hspan hdrops).imp_left Nat.le_of_lt
        rw [flatMap_range_succ, run_append, hbefore, outputAt, if_neg hdropped, templateState_succ]
        -- A marker is entered and left outside; any other position is the same in both scans.
        by_cases hmark : text[i]? = some '?'
        · rw [replacement_mark answer hmark, staticAt_mark hmark, hsettled.marker i hmark,
            hanswer i hmark, run_nil]
        · rw [replacement_of_ne_mark answer hmark]

/-! ## The SQL, glyph by glyph -/

section Glyphs

variable (mode : EscapingMode) (elision : ElisionMode) (arguments : List Value)
  (fragments : Nat → List Fragment) (text : List Char)

/-- The answers of markers that are written as the given fragments. -/
def answersOf (k : Nat) : String × Bool :=
  (Fragment.writtenAll mode.escaper (fragments k), (argumentAt arguments k).isSkip)

/-- What a position contributes to the SQL, glyph by glyph. -/
def glyphsAt (i : Nat) : List Glyph :=
  if IsDropped elision (answersOf mode arguments fragments) text i then []
  else readAt (fun k _ => (fragments k).flatMap (Fragment.glyphs mode))
    (fun c => [(c, .template i)]) text i

/-- What the positions before a given one contribute. -/
def glyphsBefore (n : Nat) : List Glyph :=
  (List.range n).flatMap (glyphsAt mode elision arguments fragments text)

/-- The glyphs of a position have the characters that it puts out. -/
theorem charsOf_glyphsAt (i : Nat) :
    charsOf (glyphsAt mode elision arguments fragments text i)
      = outputAt elision (answersOf mode arguments fragments) text i := by
  rw [glyphsAt, outputAt]
  split
  · rfl
  · rw [charsOf, map_readAt, replacement]
    congr 1
    funext k m
    exact Fragment.charsOf_glyphs_all mode (fragments k)

/-- The glyphs before a position have the characters that are put out before it. -/
theorem charsOf_glyphsBefore (n : Nat) :
    charsOf (glyphsBefore mode elision arguments fragments text n)
      = (List.range n).flatMap (outputAt elision (answersOf mode arguments fragments) text) := by
  rw [glyphsBefore, charsOf_flatMap]
  exact List.flatMap_congr fun i _ => charsOf_glyphsAt mode elision arguments fragments text i

/-- Every glyph comes from one position that stays. -/
theorem exists_of_glyphsBefore_eq {n : Nat} {l r : List Glyph} {g : Glyph}
    (h : glyphsBefore mode elision arguments fragments text n = l ++ g :: r) :
    ∃ i < n, ¬ IsDropped elision (answersOf mode arguments fragments) text i
      ∧ ∃ l' r', readAt (fun k _ => (fragments k).flatMap (Fragment.glyphs mode))
            (fun c => [(c, .template i)]) text i = l' ++ g :: r'
          ∧ l = glyphsBefore mode elision arguments fragments text i ++ l' := by
  obtain ⟨before, i, after, l', r', hrange, hi, rfl⟩ := exists_of_flatMap_eq h
  have hget : (List.range n)[before.length]? = some i := by
    rw [hrange, List.getElem?_append_right (Nat.le_refl _), Nat.sub_self]
    rfl
  obtain ⟨hlt, hi'⟩ := List.getElem?_eq_some_iff.mp hget
  rw [List.length_range] at hlt
  rw [List.getElem_range] at hi'
  -- The positions before the one that contributes the glyph are an initial part of the range.
  have hbefore : before = List.range i := by
    have htake := congrArg (List.take before.length) hrange
    rw [List.take_left, List.take_range, Nat.min_eq_left (Nat.le_of_lt hlt), hi'] at htake
    exact htake.symm
  rw [glyphsAt] at hi
  split at hi
  · exact absurd hi (by simp)
  · rename_i hkept
    exact ⟨i, hi' ▸ hlt, hkept, l', r', hi, by rw [hbefore]; rfl⟩

end Glyphs

section

variable {arguments : List Value} {fragments : Nat → List Fragment}

/-- Up to a position that stays, and up to the one behind it, the SQL is scanned as the template. -/
theorem run_glyphsBefore (hsettled : QuotesSettled mode text)
    (hunquoted : ∀ i, text[i]? = some '?' → ∀ f ∈ fragments (marksBefore text i), f.Unquoted)
    (hi : i ≤ text.length)
    (hout : ∀ a b, FlatSpan text a b →
      elision.Drops (answersOf mode arguments fragments) text a b → i ≤ a ∨ b < i) :
    run mode outside (charsOf (glyphsBefore mode elision arguments fragments text i))
      = templateState mode text i := by
  rw [charsOf_glyphsBefore]
  refine run_output hsettled (fun j hj => ?_) hi hout
  rw [answersOf, ← Fragment.charsOf_glyphs_all]
  exact run_fragments (hunquoted j hj)

/-- What is put out before a position that is kept ends in the state that the template has there. -/
theorem run_glyphsBefore_of_not_isDropped (hsettled : QuotesSettled mode text)
    (hunquoted : ∀ i, text[i]? = some '?' → ∀ f ∈ fragments (marksBefore text i), f.Unquoted)
    (hi : i < text.length) (h : ¬ IsDropped elision (answersOf mode arguments fragments) text i) :
    run mode outside (charsOf (glyphsBefore mode elision arguments fragments text i))
      = templateState mode text i :=
  run_glyphsBefore hsettled hunquoted (Nat.le_of_lt hi) fun _ _ hspan hdrops =>
    (not_inside_of_not_isDropped h hspan hdrops).imp_left Nat.le_of_lt

/-- What is put out up to a position that is kept ends in the state that the template has behind it.
-/
theorem run_glyphsBefore_succ (hsettled : QuotesSettled mode text)
    (hunquoted : ∀ i, text[i]? = some '?' → ∀ f ∈ fragments (marksBefore text i), f.Unquoted)
    (hi : i < text.length) (h : ¬ IsDropped elision (answersOf mode arguments fragments) text i) :
    run mode outside (charsOf (glyphsBefore mode elision arguments fragments text (i + 1)))
      = templateState mode text (i + 1) :=
  run_glyphsBefore hsettled hunquoted (Nat.succ_le_of_lt hi) fun _ _ hspan hdrops =>
    (not_inside_of_not_isDropped h hspan hdrops).imp Nat.succ_le_of_lt Nat.lt_succ_of_lt

/-- A glyph of a position that stays is read as the template reads that position, or inside a
literal. -/
theorem run_of_readAt_eq {l r : List Glyph} {c : Char} {origin : Origin}
    (hsettled : QuotesSettled mode text)
    (hunquoted : ∀ i, text[i]? = some '?' → ∀ f ∈ fragments (marksBefore text i), f.Unquoted)
    (h : readAt (fun k _ => (fragments k).flatMap (Fragment.glyphs mode))
      (fun c => [(c, .template i)]) text i = l ++ (c, origin) :: r) :
    (∀ j, origin = .template j → j = i ∧ text[i]? = some c ∧ l = [])
      ∧ ∀ raw, origin = .body raw → raw ≠ '\'' →
          run mode (templateState mode text i) (charsOf l) ≠ outside := by
  -- A glyph of the template comes from a plain position, and one of a literal from a marker.
  by_cases hmark : text[i]? = some '?'
  · rw [readAt_of_mark _ _ hmark] at h
    refine ⟨fun j hj => ?_, fun raw hraw hquote => ?_⟩
    · have hmem :
          (c, origin) ∈ (fragments (marksBefore text i)).flatMap (Fragment.glyphs mode) := by
        rw [h]
        exact List.mem_append_right l List.mem_cons_self
      obtain ⟨f, -, hf⟩ := List.mem_flatMap.mp hmem
      exact absurd hj (Fragment.ne_template_of_mem_glyphs hf j)
    · rw [hsettled.marker i hmark]
      rw [hraw] at h
      exact run_ne_outside_of_fragments (hunquoted i hmark) hquote h
  · rcases readAt_of_ne_mark _ _ hmark with hnil | ⟨d, hd, hplain⟩
    · rw [hnil] at h
      exact absurd h (by simp)
    · rw [hplain] at h
      obtain ⟨rfl, hglyph, -⟩ : l = [] ∧ (d, Origin.template i) = (c, origin) ∧ r = [] := by
        cases l with
        | nil => simpa [eq_comm] using h
        | cons g l => exact absurd (List.cons.inj h).2 (by simp)
      obtain ⟨rfl, rfl⟩ := Prod.mk.inj hglyph
      exact ⟨fun j hj => ⟨(Origin.template.inj hj).symm, hd, rfl⟩,
        fun raw hraw => absurd hraw nofun⟩

end

/-- Arguments stay inside their literals: how the SQL of a template is scanned, when the marker with
number `k` is written as the fragments with that number. -/
structure QuotesContained (mode : EscapingMode) (elision : ElisionMode) (arguments : List Value)
    (fragments : Nat → List Fragment) (text sql : List Char) : Prop where
  /-- The fragments are those of the arguments. -/
  written : ∀ i, text[i]? = some '?' →
    (markerAt text i).fragments mode.escaper (argumentAt arguments (marksBefore text i))
      = .ok (fragments (marksBefore text i))
  /-- The glyphs spell the SQL. -/
  spelled : sql = charsOf (glyphsBefore mode elision arguments fragments text text.length)
  /-- The text of a marker begins and ends outside. -/
  marker : ∀ i, text[i]? = some '?' →
    ¬ IsDropped elision (answersOf mode arguments fragments) text i →
    run mode outside (charsOf (glyphsBefore mode elision arguments fragments text i)) = outside
      ∧ run mode outside (charsOf (glyphsBefore mode elision arguments fragments text (i + 1)))
        = outside
  /-- A character of the template is read as the template alone has it. -/
  template : ∀ l c i r,
    glyphsBefore mode elision arguments fragments text text.length = l ++ (c, .template i) :: r →
    text[i]? = some c ∧ run mode outside (charsOf l) = templateState mode text i
  /-- A character for one of a text value is read inside a literal, if that one is no quote. -/
  body : ∀ l c raw r,
    glyphsBefore mode elision arguments fragments text text.length = l ++ (c, .body raw) :: r →
    raw ≠ '\'' → run mode outside (charsOf l) = inside ∨ run mode outside (charsOf l) = escaped
  /-- The scan ends where that of the template alone does. -/
  final : run mode outside sql = templateState mode text text.length

/-- **Where every fragment is written outside of quotes, the quotes of the template are kept.** -/
theorem QuotesContained.of_unquoted {arguments : List Value} {fragments : Nat → List Fragment}
    {sql : List Char} (hsettled : QuotesSettled mode text)
    (hwritten : ∀ i, text[i]? = some '?' →
      (markerAt text i).fragments mode.escaper (argumentAt arguments (marksBefore text i))
        = .ok (fragments (marksBefore text i)))
    (hunquoted : ∀ i, text[i]? = some '?' → ∀ f ∈ fragments (marksBefore text i), f.Unquoted)
    (hspelled : sql = charsOf (glyphsBefore mode elision arguments fragments text text.length)) :
    QuotesContained mode elision arguments fragments text sql := by
  refine ⟨hwritten, hspelled, ?_, ?_, ?_, ?_⟩
  · intro i hi hkept
    have hlt : i < text.length := (List.getElem?_eq_some_iff.mp hi).1
    rw [run_glyphsBefore_of_not_isDropped hsettled hunquoted hlt hkept,
      run_glyphsBefore_succ hsettled hunquoted hlt hkept, templateState_succ, staticAt_mark hi,
      run_nil, and_self]
    exact hsettled.marker i hi
  · intro l c i r hglyphs
    obtain ⟨j, hj, hkept, l', r', hread, rfl⟩ := exists_of_glyphsBefore_eq _ _ _ _ _ hglyphs
    obtain ⟨rfl, hget, rfl⟩ := (run_of_readAt_eq hsettled hunquoted hread).1 i rfl
    rw [List.append_nil]
    exact ⟨hget, run_glyphsBefore_of_not_isDropped hsettled hunquoted hj hkept⟩
  · intro l c raw r hglyphs hraw
    obtain ⟨j, hj, hkept, l', r', hread, rfl⟩ := exists_of_glyphsBefore_eq _ _ _ _ _ hglyphs
    have hinside := (run_of_readAt_eq hsettled hunquoted hread).2 raw rfl hraw
    rw [charsOf_append, run_append, run_glyphsBefore_of_not_isDropped hsettled hunquoted hj hkept]
    -- Not being outside, the state is one of the two others.
    cases hstate : run mode (templateState mode text j) (charsOf l') with
    | outside => exact absurd hstate hinside
    | inside => exact Or.inl rfl
    | escaped => exact Or.inr rfl
  · rw [hspelled]
    exact run_glyphsBefore hsettled hunquoted (Nat.le_refl _) fun a b hspan _ =>
      Or.inr (List.getElem?_eq_some_iff.mp hspan.closes).1

/-- A success has written all arguments as fragments, and its SQL is spelled by their glyphs. -/
theorem exists_fragments_of_compile {options : Options} {source sql : String}
    {arguments : List Value} (h : compile mode.escaper options source arguments = .ok sql) :
    ∃ fragments : Nat → List Fragment,
      (∀ i, source.toList[i]? = some '?' → (markerAt source.toList i).fragments mode.escaper
          (argumentAt arguments (marksBefore source.toList i))
        = .ok (fragments (marksBefore source.toList i)))
      ∧ sql.toList = charsOf (glyphsBefore mode options.elision arguments fragments source.toList
          source.toList.length) := by
  -- Every marker has been written, so its value has fragments.
  have hfragments : ∀ i, source.toList[i]? = some '?' → ∃ fs,
      (markerAt source.toList i).fragments mode.escaper
        (argumentAt arguments (marksBefore source.toList i)) = .ok fs := by
    intro i hi
    obtain ⟨w, hw⟩ := exists_writtenAt_of_compile h hi
    rw [writtenAt, Marker.format_eq] at hw
    obtain ⟨fs, hfs, -⟩ := exists_of_map_eq_ok hw
    exact ⟨fs, hfs⟩
  obtain ⟨fragments, hwritten⟩ := exists_numbering hfragments
  have hsql : sql = String.ofList
      (rewritten options.elision (answersOf mode arguments fragments) source.toList) :=
    eq_rewritten_of_compile h fun i hi => by
      rw [writtenAt, Marker.format_eq, hwritten i hi]
      rfl
  refine ⟨fragments, hwritten, ?_⟩
  rw [hsql, String.toList_ofList, rewritten, charsOf_glyphsBefore]

/-- **Text from arguments cannot leave its literal.** If the text of a template is outside all
literals at its markers and at both ends of its blocks, and the names among the arguments hold no
single quote, then in all SQL that is made of the template arguments stay inside their literals,
with any built-in escaping, elision and way of counting. -/
theorem quotes_contained {mode : EscapingMode} {options : Options} {source sql : String}
    {arguments : List Value} (hsettled : QuotesSettled mode source.toList)
    (hnames : ∀ i, source.toList[i]? = some '?' →
      ∀ name ∈ (markerAt source.toList i).names
          (argumentAt arguments (marksBefore source.toList i)), '\'' ∉ name.toList)
    (h : compile mode.escaper options source arguments = .ok sql) :
    ∃ fragments, QuotesContained mode options.elision arguments fragments source.toList
      sql.toList := by
  obtain ⟨fragments, hwritten, hspelled⟩ := exists_fragments_of_compile h
  exact ⟨fragments, QuotesContained.of_unquoted hsettled hwritten
    (fun i hi => Marker.unquoted_of_fragments (hnames i hi) (hwritten i hi)) hspelled⟩

/-- A template with a literal of its own and a dropped block, and a value that ends in what would
close a literal. -/
theorem quotes_contained_mapping :
    QuotesSettled .mysql "'\\''\x7by=?\x7d?# ?a".toList
      ∧ ∃ fragments, QuotesContained .mysql .structural
          [.skip, .text "n", .mapping [("k", .text "\\' --")]] fragments
          "'\\''\x7by=?\x7d?# ?a".toList
          "'\\''`n` `k` = '\\\\\\' --'".toList := by
  have hsettled : QuotesSettled .mysql "'\\''\x7by=?\x7d?# ?a".toList := by decide +kernel
  have hmarks : markPositions "'\\''\x7by=?\x7d?# ?a".toList = [7, 9, 12] := by decide +kernel
  have hcompile : compile EscapingMode.mysql.escaper ⟨.structural, false⟩ "'\\''\x7by=?\x7d?# ?a"
      [.skip, .text "n", .mapping [("k", .text "\\' --")]]
        = .ok "'\\''`n` `k` = '\\\\\\' --'" := by decide +kernel
  refine ⟨hsettled, quotes_contained hsettled (fun i hi => ?_) hcompile⟩
  have hi' := mem_markPositions.mpr hi
  rw [hmarks, List.mem_cons, List.mem_cons, List.mem_singleton] at hi'
  rcases hi' with rfl | rfl | rfl <;> decide +kernel

end SqlTemplate
