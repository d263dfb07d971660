import SqlTemplate.Proofs.Rewriting
import SqlTemplate.Proofs.Skipping
import Mathlib.Data.List.Flatten

/-!
The textual mode of elision against the structural one.

The two modes differ in the last step only: both are given the same rendered segments. They agree on
a block that took the skip sentinel, since the sentinel is written as `NULL` in that very block, at
every marker and with every escaper. That is an invariant of rendering, kept by each piece
(`Piece.ensures_render`) and so by each block and by the whole run (`ensures_substitute`). What is
left to differ about are blocks that took no sentinel and have `NULL` in them all the same. The
textual mode drops them and the structural mode keeps them, so `textual_drops_more` can say what the
one makes of a template in terms of the other.
-/

set_option autoImplicit false

namespace SqlTemplate

variable {α β : Type} {escape : Escaper}

/-! ## Postconditions of computations that take arguments -/

namespace Serving

/-- Every success of the computation satisfies `P`, wherever the cursor stands. -/
def Ensures (P : α → Prop) (action : Serving α) : Prop :=
  ∀ cursor a after, action.outcome cursor = (.ok a, after) → P a

variable {P : α → Prop} {Q : β → Prop}

/-- A result that is given has what it has. -/
theorem Ensures.pure {a : α} (h : P a) : Ensures P (pure a) := by
  intro cursor b after hrun
  rw [outcome_pure, Prod.mk.injEq, Except.ok.injEq] at hrun
  rwa [← hrun.1]

/-- A success of two computations in a row comes from a success of each. -/
theorem exists_of_outcome_bind {action : Serving α} {f : α → Serving β} {cursor after : Cursor}
    {b : β} (h : (action >>= f).outcome cursor = (.ok b, after)) :
    ∃ a middle, action.outcome cursor = (.ok a, middle)
      ∧ (f a).outcome middle = (.ok b, after) := by
  cases hfirst : action.outcome cursor with
  | mk result middle =>
    cases result with
    | error e =>
      rw [outcome_bind_error f hfirst] at h
      exact absurd h (by simp)
    | ok a =>
      rw [outcome_bind_ok f hfirst] at h
      exact ⟨a, middle, rfl, h⟩

/-- What a chain ensures is what its last part ensures of all results of the first. -/
theorem Ensures.bind {action : Serving α} {f : α → Serving β} (h : Ensures P action)
    (hf : ∀ a, P a → Ensures Q (f a)) : Ensures Q (action >>= f) := by
  intro cursor b after hrun
  obtain ⟨a, middle, hfirst, hsecond⟩ := exists_of_outcome_bind hrun
  exact hf a (h cursor a middle hfirst) middle b after hsecond

/-- What is ensured of each element is ensured of all results. -/
theorem Ensures.mapM {f : α → Serving β} {as : List α} (h : ∀ a ∈ as, Ensures Q (f a)) :
    Ensures (fun bs => ∀ b ∈ bs, Q b) (as.mapM f) := by
  induction as with
  | nil => exact Ensures.pure fun b hb => absurd hb List.not_mem_nil
  | cons a as ih =>
    rw [List.forall_mem_cons] at h
    rw [List.mapM_cons]
    refine Ensures.bind h.1 fun b hb => Ensures.bind (ih h.2) fun bs hbs => ?_
    exact Ensures.pure (List.forall_mem_cons.mpr ⟨hb, hbs⟩)

end Serving

/-! ## A skip leaves a `NULL` behind -/

open Serving

/-- Joined parts hold each of them. -/
theorem infix_join {s : String} {parts : List String} (h : s ∈ parts) :
    s.toList <:+: (String.join parts).toList := by
  induction parts with
  | nil => exact absurd h List.not_mem_nil
  | cons part parts ih =>
    rw [String.join_cons, String.toList_append]
    rcases List.mem_cons.mp h with rfl | h
    · exact (List.prefix_append _ _).isInfix
    · exact (ih h).trans (List.suffix_append _ _).isInfix

/-- A piece that took the skip sentinel is written as `NULL`, whatever its marker. -/
theorem Piece.ensures_render (escape : Escaper) (p : Piece) :
    Ensures (fun part : String × Bool => part.2 = true → part.1 = nullText) (p.render escape) := by
  cases p with
  | text content => exact Ensures.pure fun h => absurd h Bool.false_ne_true
  | marker m =>
    intro cursor part after hrun
    obtain ⟨value, middle, -, hformat⟩ := exists_of_outcome_bind hrun
    obtain ⟨written, last, hwritten, hreturn⟩ := exists_of_outcome_bind hformat
    rw [outcome_pure, Prod.mk.injEq, Except.ok.injEq] at hreturn
    rw [outcome_ofResult, Prod.mk.injEq] at hwritten
    rw [← hreturn.1]
    intro hskip
    cases value with
    | skip => exact (Except.ok.inj hwritten.1).symm
    | _ => exact absurd hskip Bool.false_ne_true

/-- `NULL` occurs in the body of a block. -/
def Rendered.HasNull (body : String) : Prop :=
  nullText.toList <:+: body.toList

/-- A body mentions `NULL` if the word occurs in it. -/
theorem mentionsNull_iff (body : String) : mentionsNull body = true ↔ Rendered.HasNull body :=
  occurs_iff _ _

/-- A rendered segment in which a skip is seen in the text, if it is a block. -/
def Rendered.ShowsSkip (r : Rendered) : Prop :=
  ∀ body, r = .block body true → HasNull body

/-- A block that is rendered as skipped mentions `NULL`, which the skip is written as. -/
theorem Segment.ensures_render (escape : Escaper) (s : Segment) :
    Ensures Rendered.ShowsSkip (s.render escape) := by
  cases s with
  | piece p =>
    refine Ensures.bind (p.ensures_render escape) fun part _ => Ensures.pure ?_
    intro body hbody
    exact absurd hbody (by simp)
  | block pieces =>
    refine Ensures.bind (Ensures.mapM fun p _ => p.ensures_render escape) fun parts hparts => ?_
    refine Ensures.pure ?_
    intro body hbody
    rw [Rendered.block.injEq] at hbody
    obtain ⟨rfl, hskipped⟩ := hbody
    -- One of the parts took the sentinel, and its text is one of those that are joined.
    obtain ⟨part, hmem, hskip⟩ := List.any_eq_true.mp hskipped
    have hnull : part.1 = nullText := hparts part hmem hskip
    apply infix_join
    rw [← hnull]
    exact List.mem_map_of_mem hmem

/-- Every skipped block of a template mentions `NULL`. -/
theorem Template.ensures_substitute (escape : Escaper) (t : Template) :
    Ensures (fun rendered => ∀ r ∈ rendered, r.ShowsSkip) (t.substitute escape) :=
  Ensures.mapM fun s _ => s.ensures_render escape

/-! ## What the modes make of rendered segments -/

namespace Rendered

/-- A block that took no skip sentinel and has `NULL` in it. -/
def isDisputed : Rendered → Bool
  | text _ => false
  | block body skipped => !skipped && mentionsNull body

/-- The modes differ on blocks that are not skipped and mention `NULL`. -/
theorem isDisputed_iff (r : Rendered) :
    r.isDisputed = true ↔ ∃ body, r = .block body false ∧ HasNull body := by
  cases r with
  | text content => simp [isDisputed]
  | block body skipped => simp [isDisputed, mentionsNull_iff, and_comm]

/-- The textual mode keeps nothing of a disputed block. -/
theorem kept_textual_of_isDisputed {r : Rendered} (h : r.isDisputed = true) :
    r.kept .textual = "" := by
  obtain ⟨body, rfl, hnull⟩ := (isDisputed_iff r).mp h
  rw [kept, ElisionMode.drops, (mentionsNull_iff body).mpr hnull, if_pos rfl]

/-- On what is not disputed the modes agree. -/
theorem kept_textual_of_not_isDisputed {r : Rendered} (hskip : r.ShowsSkip)
    (h : r.isDisputed = false) : r.kept .textual = r.kept .structural := by
  cases r with
  | text content => rfl
  | block body skipped =>
    cases skipped with
    | true =>
      rw [kept, kept, ElisionMode.drops, ElisionMode.drops,
        (mentionsNull_iff body).mpr (hskip body rfl)]
    | false =>
      have hnull : mentionsNull body = false := h
      rw [kept, kept, ElisionMode.drops, ElisionMode.drops, hnull]

/-- **The textual mode keeps what the structural mode keeps once the disputed blocks are gone.** -/
theorem resolve_textual {rendered : List Rendered} (h : ∀ r ∈ rendered, r.ShowsSkip) :
    resolve .textual rendered
      = resolve .structural (rendered.filter fun r => !r.isDisputed) := by
  induction rendered with
  | nil => rfl
  | cons r rendered ih =>
    rw [List.forall_mem_cons] at h
    have htail := ih h.2
    unfold resolve at htail ⊢
    rw [List.map_cons, String.join_cons, htail]
    by_cases hr : r.isDisputed = true
    · rw [List.filter_cons_of_neg (by simp [hr]), kept_textual_of_isDisputed hr,
        String.empty_append]
    · have hr' : r.isDisputed = false := by simpa using hr
      rw [List.filter_cons_of_pos (by simp [hr']), List.map_cons, String.join_cons,
        kept_textual_of_not_isDisputed h.1 hr']

/-- The resolved text is what is kept of the segments, in order. -/
theorem toList_resolve (mode : ElisionMode) (rendered : List Rendered) :
    (resolve mode rendered).toList = rendered.flatMap fun r => (r.kept mode).toList := by
  unfold resolve
  induction rendered with
  | nil => rfl
  | cons r rendered ih =>
    rw [List.map_cons, String.join_cons, String.toList_append, ih, List.flatMap_cons]

/-- Less of some elements makes less of the whole. -/
theorem eq_of_flatMap_eq {f g : α → List β} {as : List α} (h : ∀ a ∈ as, (f a).Sublist (g a))
    (heq : as.flatMap f = as.flatMap g) : ∀ a ∈ as, f a = g a := by
  induction as with
  | nil => exact fun a ha => absurd ha List.not_mem_nil
  | cons a as ih =>
    rw [List.forall_mem_cons] at h
    rw [List.flatMap_cons, List.flatMap_cons] at heq
    have hlength := congrArg List.length heq
    rw [List.length_append, List.length_append] at hlength
    have hfirst := h.1.length_le
    have hrest := (List.Sublist.flatMap_right as h.2).length_le
    have ha : f a = g a := h.1.eq_of_length (by omega)
    rw [ha, List.append_cancel_left_eq] at heq
    exact List.forall_mem_cons.mpr ⟨ha, ih h.2 heq⟩

/-- The modes make the same of rendered segments exactly if no block is disputed. -/
theorem resolve_textual_eq_iff {rendered : List Rendered} (h : ∀ r ∈ rendered, r.ShowsSkip) :
    resolve .textual rendered = resolve .structural rendered
      ↔ ∀ body, .block body false ∈ rendered → ¬ HasNull body := by
  constructor
  · intro heq body hmem hnull
    have hlists := congrArg String.toList heq
    rw [toList_resolve, toList_resolve] at hlists
    have hsublist : ∀ r ∈ rendered,
        (r.kept .textual).toList.Sublist (r.kept .structural).toList := by
      intro r hr
      by_cases hdisputed : r.isDisputed = true
      · rw [kept_textual_of_isDisputed hdisputed, String.toList_empty]
        exact List.nil_sublist _
      · rw [kept_textual_of_not_isDisputed (h r hr) (by simpa using hdisputed)]
    -- A disputed block is kept by one mode and not by the other, so it would have to be empty.
    have hsame := eq_of_flatMap_eq hsublist hlists _ hmem
    rw [kept_textual_of_isDisputed ((isDisputed_iff _).mpr ⟨body, rfl, hnull⟩)] at hsame
    have hempty : body.toList = [] := hsame.symm
    rw [HasNull, hempty] at hnull
    exact absurd (List.eq_nil_of_infix_nil hnull) (by decide)
  · intro hnone
    rw [resolve_textual h, List.filter_eq_self.mpr]
    intro r hr
    by_contra hdisputed
    obtain ⟨body, rfl, hnull⟩ := (isDisputed_iff r).mp (by simpa using hdisputed)
    exact hnone body hr hnull

end Rendered

/-! ## Compiling -/

namespace Template

variable {t : Template} {strict : Bool} {arguments : List Value}

/-- Both modes resolve one and the same result of substituting. -/
theorem exists_result (escape : Escaper) (strict : Bool) (t : Template) (arguments : List Value) :
    ∃ result : Except Error (List Rendered),
      (∀ rendered, result = .ok rendered →
          t.substituted escape strict arguments = .ok rendered)
        ∧ ∀ mode, t.compile escape ⟨mode, strict⟩ arguments
            = result.map (Rendered.resolve mode) := by
  cases hrun : (t.substitute escape).outcome (.start arguments strict) with
  | mk outcome cursor =>
    -- The mode is looked at only after the last step that can fail.
    cases outcome with
    | error e =>
      refine ⟨.error e, fun rendered h => absurd h (by simp), fun mode => ?_⟩
      rw [compile, hrun]
      rfl
    | ok rendered =>
      cases hfinish : cursor.finish with
      | error e =>
        refine ⟨.error e, fun rendered h => absurd h (by simp), fun mode => ?_⟩
        rw [compile, hrun]
        simp only [hfinish]
        rfl
      | ok _ =>
        refine ⟨.ok rendered, fun _ h => ?_, fun mode => ?_⟩
        · rw [substituted, hrun, ← h]
        · rw [compile, hrun]
          simp only [hfinish]
          rfl

/-- **Textual elision only ever drops more than structural elision.** Compiling fails in one mode if
and only if it fails in the other, with the same error. Wherever a template is substituted, a block
that took the skip sentinel has `NULL` in it. And when compiling succeeds, the textual mode makes of
the rendered segments what the structural mode makes of them without some of the blocks that it
keeps, namely those with `NULL` in them; the two results are equal exactly if there is no such
block. -/
theorem textual_drops_more (escape : Escaper) (strict : Bool) (t : Template)
    (arguments : List Value) :
    (∀ e, t.compile escape ⟨.structural, strict⟩ arguments = .error e
        ↔ t.compile escape ⟨.textual, strict⟩ arguments = .error e)
      ∧ (∀ cursor rendered after, (t.substitute escape).outcome cursor = (.ok rendered, after) →
          ∀ body, .block body true ∈ rendered → nullText.toList <:+: body.toList)
      ∧ ∀ sql sql', t.compile escape ⟨.structural, strict⟩ arguments = .ok sql →
          t.compile escape ⟨.textual, strict⟩ arguments = .ok sql' →
          ∃ rendered, t.substituted escape strict arguments = .ok rendered
            ∧ sql = Rendered.resolve .structural rendered
            ∧ sql' = Rendered.resolve .structural (rendered.filter fun r => !r.isDisputed)
            ∧ (∀ r : Rendered, r.isDisputed = true
                ↔ ∃ body, r = .block body false ∧ nullText.toList <:+: body.toList)
            ∧ (sql' = sql
                ↔ ∀ body, .block body false ∈ rendered → ¬ nullText.toList <:+: body.toList) := by
  -- The two modes resolve one and the same rendering.
  obtain ⟨result, hresult, hcompile⟩ := exists_result escape strict t arguments
  rw [hcompile .structural, hcompile .textual]
  refine ⟨fun e => ?_, ?_, ?_⟩
  · cases result <;> simp [Except.map]
  · intro cursor rendered after hrun body hmem
    exact ensures_substitute escape t cursor rendered after hrun _ hmem body rfl
  · intro sql sql' h h'
    cases result with
    | error e => exact absurd h (by simp [Except.map])
    | ok rendered =>
      have hsubstituted := hresult rendered rfl
      have hskips : ∀ r ∈ rendered, r.ShowsSkip :=
        ensures_substitute escape t (.start arguments strict) rendered _
          (Prod.ext hsubstituted rfl)
      obtain rfl := Except.ok.inj h
      obtain rfl := Except.ok.inj h'
      exact ⟨rendered, hsubstituted, rfl, Rendered.resolve_textual hskips,
        Rendered.isDisputed_iff, Rendered.resolve_textual_eq_iff hskips⟩

end Template

end SqlTemplate
