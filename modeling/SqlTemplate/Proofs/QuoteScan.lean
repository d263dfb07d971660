import SqlTemplate.Proofs.Format.Fragments
import Mathlib.Tactic.SplitIfs

/-!
How a server scans literals, and what formatted values do to the scan.

A server reads SQL from left to right and keeps track of where it is: outside all literals, inside
one, or, with backslash escapes, behind a backslash inside one. `QuoteState.run` is that scan.
Fragments leave it as they found it: code without quotes never enters a literal, and the body that
an escaper writes never leaves one before the closing quote (`run_fragments`). On the way, what is
written for a character of raw text is read inside the literal, the single quote apart
(`run_ne_outside_of_fragments`). For this every character of a fragment carries its origin.
-/

set_option autoImplicit false

namespace SqlTemplate

/-! ## The scan -/

/-- Where a reader of SQL stands. -/
inductive QuoteState where
  | outside
  | inside
  /-- Inside, behind a backslash. -/
  | escaped
  deriving DecidableEq, Repr

namespace QuoteState

/-- One character more; only the `mysql` mode knows backslash escapes. -/
def step (mode : EscapingMode) : QuoteState → Char → QuoteState
  | outside, c => if c = '\'' then inside else outside
  | inside, c => if c = '\'' then outside else if mode = .mysql ∧ c = '\\' then escaped else inside
  | escaped, _ => inside

/-- The state after a text. -/
def run (mode : EscapingMode) (state : QuoteState) (text : List Char) : QuoteState :=
  text.foldl (step mode) state

variable {mode : EscapingMode}

@[simp] theorem run_nil (state : QuoteState) : run mode state [] = state := rfl

theorem run_cons (state : QuoteState) (c : Char) (text : List Char) :
    run mode state (c :: text) = run mode (step mode state c) text := rfl

theorem run_append (state : QuoteState) (l r : List Char) :
    run mode state (l ++ r) = run mode (run mode state l) r := List.foldl_append

/-- Without a quote the scan stays outside. -/
theorem run_outside {text : List Char} (h : '\'' ∉ text) : run mode outside text = outside := by
  induction text with
  | nil => rfl
  | cons c text ih =>
    rw [List.mem_cons, not_or] at h
    rw [run_cons, step, if_neg (Ne.symm h.1), ih h.2]

end QuoteState

/-! ## Escaped characters -/

/-- A character is written as it is, behind a backslash, or, if it is a quote, twice. -/
theorem EscapingMode.escapeChar_cases (mode : EscapingMode) (c : Char) :
    (mode.escapeChar c = [c] ∧ c ≠ '\'' ∧ (mode = .mysql → c ≠ '\\'))
      ∨ (mode = .mysql ∧ ∃ d, mode.escapeChar c = ['\\', d])
      ∨ (mode ≠ .mysql ∧ c = '\'' ∧ mode.escapeChar c = ['\'', '\'']) := by
  have hdouble : ∀ mode : EscapingMode, mode ≠ .mysql → mode.escapeChar = Escaper.doubleQuote →
      (mode.escapeChar c = [c] ∧ c ≠ '\'' ∧ (mode = .mysql → c ≠ '\\'))
        ∨ (mode = .mysql ∧ ∃ d, mode.escapeChar c = ['\\', d])
        ∨ (mode ≠ .mysql ∧ c = '\'' ∧ mode.escapeChar c = ['\'', '\'']) := by
    intro mode hmode hescape
    rw [hescape, Escaper.doubleQuote]
    by_cases hc : c = '\''
    · exact Or.inr (Or.inr ⟨hmode, hc, if_pos hc⟩)
    · exact Or.inl ⟨if_neg hc, hc, fun h => absurd h hmode⟩
  -- Two of the modes have the same rule.
  cases mode with
  | mysqlNoBackslash => exact hdouble _ (by decide) rfl
  | standard => exact hdouble _ (by decide) rfl
  | mysql =>
    rw [escapeChar, Escaper.backslash]
    split_ifs with h0 hn hr hbackslash hquote hdoubled hz
    all_goals first
      | exact Or.inr (Or.inl ⟨rfl, _, rfl⟩)
      | exact Or.inl ⟨rfl, hquote, fun _ => hbackslash⟩

namespace QuoteState

variable {mode : EscapingMode}

/-- What is written for a character of raw text ends inside the literal that it is written into. -/
theorem run_escapeChar (c : Char) : run mode inside (mode.escapeChar c) = inside := by
  rcases mode.escapeChar_cases c with ⟨heq, hquote, hbackslash⟩ | ⟨rfl, d, heq⟩ | ⟨-, -, heq⟩
  · rw [heq, run_cons, run_nil, step, if_neg hquote, if_neg fun h => hbackslash h.1 h.2]
  · rw [heq]
    rfl
  · rw [heq]
    rfl

/-- Only a single quote is written in a way that leaves the literal in between. -/
theorem run_ne_outside_of_escapeChar {c d : Char} {l r : List Char} (hc : c ≠ '\'')
    (h : mode.escapeChar c = l ++ d :: r) : run mode inside l ≠ outside := by
  rcases mode.escapeChar_cases c with ⟨heq, -, -⟩ | ⟨rfl, e, heq⟩ | ⟨-, hquote, -⟩
  · rw [heq] at h
    cases l with
    | nil => exact nofun
    | cons a l => exact absurd (List.cons.inj h).2.symm (by simp)
  · rw [heq] at h
    cases l with
    | nil => exact nofun
    | cons a l =>
      obtain ⟨rfl, h⟩ := List.cons.inj h
      cases l with
      | nil => exact nofun
      | cons a l => exact absurd (List.cons.inj h).2.symm (by simp)
  · exact absurd hquote hc

end QuoteState

/-! ## Characters and their origin -/

/-- Where a character of the SQL comes from. -/
inductive Origin where
  /-- From a position of the template. -/
  | template (position : Nat)
  /-- From a marker, but not for a character of a text value. -/
  | code
  /-- From a marker, for a character of a text value. -/
  | body (raw : Char)
  deriving DecidableEq, Repr

/-- A character of the SQL with its origin. -/
abbrev Glyph := Char × Origin

/-- The text of glyphs. -/
def charsOf (glyphs : List Glyph) : List Char := glyphs.map Prod.fst

theorem charsOf_append (l r : List Glyph) : charsOf (l ++ r) = charsOf l ++ charsOf r :=
  List.map_append

theorem charsOf_flatMap {α : Type} (f : α → List Glyph) (as : List α) :
    charsOf (as.flatMap f) = as.flatMap fun a => charsOf (f a) := List.map_flatMap

variable {mode : EscapingMode}

/-- The glyphs of the body of a literal. -/
def bodyGlyphs (mode : EscapingMode) (raw : List Char) : List Glyph :=
  raw.flatMap fun c => (mode.escapeChar c).map fun d => (d, .body c)

/-- The glyphs of a fragment. -/
def Fragment.glyphs (mode : EscapingMode) : Fragment → List Glyph
  | code text => text.toList.map fun c => (c, .code)
  | literal raw => ('\'', .code) :: (bodyGlyphs mode raw.toList ++ [('\'', .code)])

theorem charsOf_bodyGlyphs (mode : EscapingMode) (raw : List Char) :
    charsOf (bodyGlyphs mode raw) = raw.flatMap mode.escapeChar := by
  rw [bodyGlyphs, charsOf_flatMap]
  apply List.flatMap_congr
  intro c _
  rw [charsOf, List.map_map]
  exact List.map_id _

/-- The glyphs of a fragment have the characters that are written. -/
theorem Fragment.charsOf_glyphs (mode : EscapingMode) (f : Fragment) :
    charsOf (f.glyphs mode) = (f.written mode.escaper).toList := by
  cases f with
  | code text =>
    rw [glyphs, charsOf, List.map_map]
    exact List.map_id _
  | literal raw =>
    have hescape : (mode.escaper raw).toList = charsOf (bodyGlyphs mode raw.toList) := by
      rw [charsOf_bodyGlyphs, EscapingMode.escaper, Escaper.ofChars, String.toList_ofList]
    rw [written, String.toList_append, String.toList_append, hescape, List.append_assoc]
    show '\'' :: charsOf (bodyGlyphs mode raw.toList ++ [('\'', Origin.code)]) = _
    rw [charsOf_append]
    rfl

theorem Fragment.charsOf_glyphs_all (mode : EscapingMode) (fs : List Fragment) :
    charsOf (fs.flatMap (glyphs mode)) = (writtenAll mode.escaper fs).toList := by
  rw [charsOf_flatMap, writtenAll, String.toList_join, List.flatMap_map]
  exact List.flatMap_congr fun f _ => charsOf_glyphs mode f

/-- A fragment has nothing of the template. -/
theorem Fragment.ne_template_of_mem_glyphs {f : Fragment} {g : Glyph} (h : g ∈ f.glyphs mode)
    (i : Nat) : g.2 ≠ .template i := by
  cases f with
  | code text =>
    obtain ⟨c, -, rfl⟩ := List.mem_map.mp h
    exact nofun
  | literal raw =>
    rw [glyphs, List.mem_cons, List.mem_append, List.mem_singleton] at h
    rcases h with rfl | hbody | rfl
    · exact nofun
    · obtain ⟨c, -, hc⟩ := List.mem_flatMap.mp hbody
      obtain ⟨d, -, rfl⟩ := List.mem_map.mp hc
      exact nofun
    · exact nofun

/-- A glyph of a row of texts is a glyph of one of them. -/
theorem exists_of_flatMap_eq {α β : Type} {f : α → List β} {as : List α} {l r : List β} {b : β}
    (h : as.flatMap f = l ++ b :: r) :
    ∃ before a after l' r', as = before ++ a :: after ∧ f a = l' ++ b :: r'
      ∧ l = before.flatMap f ++ l' := by
  induction as generalizing l with
  | nil => exact absurd h (by simp)
  | cons a as ih =>
    rw [List.flatMap_cons] at h
    -- The glyph lies behind what the first text gives, or in it.
    rcases List.append_eq_append_iff.mp h with ⟨l', rfl, h'⟩ | ⟨r', hfa, h'⟩
    · obtain ⟨before, a', after, l'', r'', rfl, hfa', rfl⟩ := ih h'
      exact ⟨a :: before, a', after, l'', r'', rfl, hfa', by
        rw [List.flatMap_cons, List.append_assoc]⟩
    · cases r' with
      | nil =>
        obtain ⟨before, a', after, l'', r'', rfl, hfa', hl⟩ := @ih [] h'.symm
        rw [List.append_nil] at hfa
        refine ⟨a :: before, a', after, l'', r'', rfl, hfa', ?_⟩
        rw [List.flatMap_cons, List.append_assoc, ← hl, List.append_nil, hfa]
      | cons d r' =>
        obtain ⟨rfl, -⟩ := List.cons.inj h'
        exact ⟨[], a, as, l, r', rfl, hfa, rfl⟩

namespace QuoteState

variable {mode : EscapingMode} {l r : List Glyph} {c raw : Char}

/-- Escaped text does not leave the quotes that it stands in. -/
theorem run_body (text : List Char) : run mode inside (text.flatMap mode.escapeChar) = inside := by
  induction text with
  | nil => rfl
  | cons c text ih => rw [List.flatMap_cons, run_append, run_escapeChar, ih]

/-- A fragment that is scanned from the outside ends outside. -/
theorem run_fragment {f : Fragment} (h : f.Unquoted) :
    run mode outside (charsOf (f.glyphs mode)) = outside := by
  cases f with
  | code text =>
    rw [Fragment.charsOf_glyphs]
    exact run_outside h
  | literal raw =>
    show run mode outside
      ('\'' :: charsOf (bodyGlyphs mode raw.toList ++ [('\'', Origin.code)])) = _
    rw [charsOf_append, charsOf_bodyGlyphs, run_cons, run_append]
    show run mode (run mode inside _) _ = outside
    rw [run_body]
    rfl

theorem run_fragments {fs : List Fragment} (h : ∀ f ∈ fs, f.Unquoted) :
    run mode outside (charsOf (fs.flatMap (Fragment.glyphs mode))) = outside := by
  induction fs with
  | nil => rfl
  | cons f fs ih =>
    rw [List.forall_mem_cons] at h
    rw [List.flatMap_cons, charsOf_append, run_append, run_fragment h.1, ih h.2]

/-- The body of a literal is read inside it, quotes in the raw text apart. -/
theorem run_ne_outside_of_body {text : List Char} (hraw : raw ≠ '\'')
    (h : bodyGlyphs mode text = l ++ (c, .body raw) :: r) :
    run mode inside (charsOf l) ≠ outside := by
  obtain ⟨before, a, after, l', r', rfl, ha, rfl⟩ := exists_of_flatMap_eq h
  obtain ⟨left, right, hescape, rfl, hright⟩ := List.map_eq_append_iff.mp ha
  obtain ⟨d, right', rfl, hd, -⟩ := List.map_eq_cons_iff.mp hright
  obtain ⟨rfl, hbody⟩ := Prod.mk.inj hd
  obtain rfl : a = raw := Origin.body.inj hbody
  have hleft : charsOf (left.map fun d => (d, Origin.body a)) = left := by
    rw [charsOf, List.map_map]
    exact List.map_id _
  have hbefore := charsOf_bodyGlyphs mode before
  rw [bodyGlyphs] at hbefore
  rw [charsOf_append, hbefore, hleft, run_append, run_body]
  exact run_ne_outside_of_escapeChar hraw hescape

/-- In a fragment, a character for raw text is read inside a literal. -/
theorem run_ne_outside_of_fragment {f : Fragment} (hraw : raw ≠ '\'')
    (h : f.glyphs mode = l ++ (c, .body raw) :: r) : run mode outside (charsOf l) ≠ outside := by
  cases f with
  | code text =>
    have hmem : (c, Origin.body raw) ∈ text.toList.map fun d => (d, Origin.code) := by
      rw [Fragment.glyphs] at h
      rw [h]
      exact List.mem_append_right l List.mem_cons_self
    obtain ⟨d, -, hd⟩ := List.mem_map.mp hmem
    exact absurd hd (by simp)
  | literal text =>
    rw [Fragment.glyphs] at h
    cases l with
    | nil => exact absurd (List.cons.inj h).1 (by simp)
    | cons g l =>
      obtain ⟨rfl, htail⟩ := List.cons.inj h
      show run mode inside (charsOf l) ≠ outside
      -- The closing quote is the last glyph and no body, so the character lies in front of it.
      rcases List.append_eq_append_iff.mp htail with ⟨l', -, hclose⟩ | ⟨r', hbody, hclose⟩
      · have hmem : (c, Origin.body raw) ∈ [('\'', Origin.code)] := by
          rw [hclose]
          exact List.mem_append_right l' List.mem_cons_self
        exact absurd hmem (by simp)
      · cases r' with
        | nil => exact absurd (List.cons.inj hclose).1 (by simp)
        | cons g r' =>
          obtain ⟨rfl, -⟩ := List.cons.inj hclose
          exact run_ne_outside_of_body hraw hbody

/-- In front of a character of a value the scan is inside quotes. -/
theorem run_ne_outside_of_fragments {fs : List Fragment} (hfs : ∀ f ∈ fs, f.Unquoted)
    (hraw : raw ≠ '\'') (h : fs.flatMap (Fragment.glyphs mode) = l ++ (c, .body raw) :: r) :
    run mode outside (charsOf l) ≠ outside := by
  obtain ⟨before, f, after, l', r', rfl, hf, rfl⟩ := exists_of_flatMap_eq h
  have hbefore : ∀ g ∈ before, g.Unquoted := fun g hg => hfs g (List.mem_append_left _ hg)
  rw [charsOf_append, run_append, run_fragments hbefore]
  exact run_ne_outside_of_fragment hraw hf

end QuoteState

end SqlTemplate
