import SqlTemplate.Format
import SqlTemplate.Proofs.Format.Fragments
import Mathlib.Data.List.Chain

/-!
The minus signs of numbers.

What is written for a number never has two minus signs in a row and never ends in one
(`Marker.signsApart_of_format`). It can begin with one; whether a second one stands before it is a
matter of the text it is put into. The minus sign of an exponent stands behind the letter of the
exponent, so it cannot meet another one either.
-/

set_option autoImplicit false

namespace SqlTemplate

/-- No minus sign has another one right before it. -/
def Undashed (text : List Char) : Prop := text.IsChain fun c d => c = '-' → d ≠ '-'

variable {s t : List Char}

/-- Two dashes in a row are what must not occur. -/
theorem undashed_iff {text : List Char} : Undashed text ↔ ¬ "--".toList <:+: text := by
  unfold Undashed
  rw [List.isChain_iff_forall_rel_of_append_cons_cons]
  constructor
  · rintro h ⟨l, r, heq⟩
    have hcut : text = l ++ '-' :: '-' :: r := by
      rw [← heq, List.append_assoc]
      rfl
    exact h hcut rfl rfl
  · rintro h c d l r heq rfl rfl
    apply h
    refine ⟨l, r, ?_⟩
    rw [heq, List.append_assoc]
    rfl

/-- Two texts are undashed together if each of them is, and no dash meets another. -/
theorem undashed_append :
    Undashed (s ++ t)
      ↔ Undashed s ∧ Undashed t ∧ (s.getLast? = some '-' → t.head? ≠ some '-') := by
  rw [Undashed, List.isChain_append]
  refine and_congr_right fun _ => and_congr_right fun _ => ⟨?_, ?_⟩
  · intro h hs ht
    exact h '-' hs '-' ht rfl rfl
  · rintro h c hc d hd rfl rfl
    exact h hc hd

theorem undashed_of_not_mem (h : '-' ∉ t) : Undashed t := by
  rw [undashed_iff]
  exact fun hin => h (hin.mem List.mem_cons_self)

/-- Two minus signs in a row are nowhere, and the last character is not one. -/
structure SignsApart (text : List Char) : Prop where
  undashed : Undashed text
  last : ∃ c, text.getLast? = some c ∧ c ≠ '-'

namespace SignsApart

theorem of_not_mem (hne : t ≠ []) (h : '-' ∉ t) : SignsApart t := by
  refine ⟨undashed_of_not_mem h, t.getLast hne, List.getLast?_eq_some_getLast hne, ?_⟩
  intro hlast
  exact h (hlast ▸ List.getLast_mem hne)

/-- What stands before does not change the last character. -/
theorem last_append (h : SignsApart t) (s : List Char) :
    ∃ c, (s ++ t).getLast? = some c ∧ c ≠ '-' := by
  obtain ⟨c, hc, hne⟩ := h.last
  exact ⟨c, by rw [List.getLast?_append, hc, Option.some_or], hne⟩

theorem append_of_not_mem (hs : '-' ∉ s) (h : SignsApart t) : SignsApart (s ++ t) := by
  refine ⟨undashed_append.mpr ⟨undashed_of_not_mem hs, h.undashed, ?_⟩, h.last_append s⟩
  intro hlast
  exact absurd (List.mem_of_getLast? hlast) hs

/-- A minus sign can stand before what does not begin with one. -/
theorem cons_sign (hhead : t.head? ≠ some '-') (h : SignsApart t) : SignsApart ('-' :: t) := by
  rw [← List.singleton_append]
  refine ⟨undashed_append.mpr ⟨List.isChain_singleton _, h.undashed, ?_⟩, h.last_append ['-']⟩
  intro _
  exact hhead

end SignsApart

/-! ## Numbers -/

theorem sign_not_mem_of_isMantissaChar (h : ∀ c ∈ t, isMantissaChar c = true) : '-' ∉ t :=
  fun hmem => absurd (h _ hmem) (by decide)

namespace Decimal

theorem signsApart_digits (n : Nat) : SignsApart (digits n) :=
  .of_not_mem (digits_ne_nil n) (sign_not_mem_of_isMantissaChar (isMantissaChar_of_mem_digits n))

/-- An integer has its signs apart. -/
theorem signsApart_integerText (n : Int) : SignsApart (integerText n).toList := by
  have hdigits := signsApart_digits n.natAbs
  rw [integerText, String.toList_ofList]
  split
  · refine hdigits.cons_sign fun hhead => ?_
    exact absurd (isDigit_of_mem_digits n.natAbs _ (List.mem_of_head? hhead)) (by decide)
  · exact hdigits

theorem plain_ne_nil (d : Decimal) : d.plain [] ≠ [] := by
  rw [plain]
  dsimp only
  split
  · rw [List.append_nil]
    exact List.append_ne_nil_of_left_ne_nil (digits_ne_nil _) _
  split
  · exact List.append_ne_nil_of_right_ne_nil _ (List.cons_ne_nil _ _)
  · exact List.cons_ne_nil _ _

/-- The size of a number has its signs apart and begins with none. -/
theorem signsApart_plain (d : Decimal) :
    SignsApart (d.plain []) ∧ (d.plain []).head? ≠ some '-' := by
  have hnone := sign_not_mem_of_isMantissaChar (isMantissaChar_of_mem_plain d)
  exact ⟨.of_not_mem (plain_ne_nil d) hnone, fun hhead => hnone (List.mem_of_head? hhead)⟩

/-- A decimal with an exponent has its signs apart, and does not start with one. -/
theorem signsApart_scientific (d : Decimal) :
    SignsApart d.scientific ∧ d.scientific.head? ≠ some '-' := by
  obtain ⟨mantissa, hne, hmantissa, heq⟩ := d.exists_mantissa
  have hnone := sign_not_mem_of_isMantissaChar hmantissa
  have hletter : '-' ∉ mantissa ++ ['e'] := by
    rw [List.mem_append, not_or]
    exact ⟨hnone, by decide⟩
  rw [heq]
  constructor
  · rw [List.append_cons]
    exact (signsApart_integerText d.order).append_of_not_mem hletter
  · rw [List.head?_append_of_ne_nil _ hne]
    exact fun hhead => hnone (List.mem_of_head? hhead)

end Decimal

variable {escape : Escaper} {v : Value} {w : String}

theorem Binary64.signsApart_literal {x : Binary64} (h : x.literal = .ok w) :
    SignsApart w.toList := by
  rw [Binary64.literal] at h
  split at h
  · rw [← Except.ok.inj h, Binary64.text, String.toList_ofList]
    have hbody : ∀ body, body = (if x.isPlain sqlNumber then x.shortest.plain sqlNumber.places
        else x.shortest.scientific) → SignsApart body ∧ body.head? ≠ some '-' := by
      rintro body rfl
      split
      · exact Decimal.signsApart_plain x.shortest
      · exact Decimal.signsApart_scientific x.shortest
    obtain ⟨hapart, hhead⟩ := hbody _ rfl
    split
    · exact hapart.cons_sign hhead
    · exact hapart
  · exact absurd h (by simp)

/-! ## Markers -/

namespace Value

/-- Whether a value is a truth value, an integer or a float. -/
def isNumber : Value → Bool
  | bool _ | int _ | float _ => true
  | null | text _ | sequence _ | mapping _ | skip => false

theorem signsApart_of_literal (hv : v.isNumber = true) (h : v.literal escape = .ok w) :
    SignsApart w.toList := by
  cases v with
  | bool truth =>
    rw [← Except.ok.inj h]
    cases truth
    · exact .of_not_mem (by decide) (by decide)
    · exact .of_not_mem (by decide) (by decide)
  | int number =>
    rw [← Except.ok.inj h]
    exact Decimal.signsApart_integerText number.toInt
  | float number => exact Binary64.signsApart_literal h
  | _ => exact absurd hv (by simp [isNumber])

theorem signsApart_of_formatInteger (h : v.formatInteger = .ok w) : SignsApart w.toList := by
  rw [formatInteger] at h
  split at h
  · rw [← Except.ok.inj h]
    exact Decimal.signsApart_integerText _
  · exact absurd h (by simp)

theorem signsApart_of_formatFloat (h : v.formatFloat = .ok w) : SignsApart w.toList := by
  rw [formatFloat] at h
  split at h
  · exact Binary64.signsApart_literal h
  · exact absurd h (by simp)

end Value

/-- A number is neither null nor skipped, so the marker decides about it. -/
theorem Marker.format_of_isNumber (hv : v.isNumber = true) (m : Marker) :
    m.format escape v = match m with
      | scalar => v.literal escape
      | integer => v.formatInteger
      | float => v.formatFloat
      | array | identifier => .error (m.misfit v) := by
  cases v with
  | bool | int | float => cases m <;> rfl
  | null | text | sequence | mapping | skip => exact absurd hv (by simp [Value.isNumber])

/-- **What a marker writes for a number has its signs apart;** so has what it writes for a missing
argument. -/
theorem Marker.signsApart_of_format {m : Marker} (hv : v.isNumber = true ∨ v = .skip)
    (h : m.format escape v = .ok w) : SignsApart w.toList := by
  rcases hv with hv | rfl
  · rw [format_of_isNumber hv] at h
    cases m with
    | scalar => exact Value.signsApart_of_literal hv h
    | integer => exact Value.signsApart_of_formatInteger h
    | float => exact Value.signsApart_of_formatFloat h
    | array | identifier => exact absurd h (by simp)
  · rw [← Except.ok.inj h]
    exact .of_not_mem (by decide) (by decide)

end SqlTemplate
