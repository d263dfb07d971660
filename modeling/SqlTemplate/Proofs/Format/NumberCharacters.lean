import SqlTemplate.Literal

/-!
The characters that numbers are written with.

Integers and floats are written with digits, a minus sign, a point and the letter of an exponent,
and with nothing else. So a number can neither open nor close anything around it.
-/

set_option autoImplicit false

namespace SqlTemplate

/-- Whether a character can occur in a number. -/
def isNumberChar (c : Char) : Bool := c.isDigit || c == '-' || c == '.' || c == 'e'

/-- Whether a character can occur before the exponent of a number without sign. -/
def isMantissaChar (c : Char) : Bool := c.isDigit || c == '.'

theorem toNat_of_isDigit {c : Char} (h : c.isDigit = true) : 48 ≤ c.toNat ∧ c.toNat ≤ 57 := by
  rw [Char.isDigit, Bool.and_eq_true, decide_eq_true_eq, decide_eq_true_eq] at h
  exact h

theorem isNumberChar_of_isDigit {c : Char} (h : c.isDigit = true) : isNumberChar c = true := by
  rw [isNumberChar, h]
  rfl

theorem isMantissaChar_of_isDigit {c : Char} (h : c.isDigit = true) : isMantissaChar c = true := by
  rw [isMantissaChar, h]
  rfl

/-- What stands in front of an exponent stands in a number. -/
theorem isNumberChar_of_isMantissaChar {c : Char} (h : isMantissaChar c = true) :
    isNumberChar c = true := by
  rw [isMantissaChar, Bool.or_eq_true, beq_iff_eq] at h
  rcases h with h | rfl
  · exact isNumberChar_of_isDigit h
  · rfl

/-! ## Integers -/

namespace Decimal

theorem isDigit_digit {n : Nat} (h : n < 10) : (digit n).isDigit = true := by
  have hall : ∀ k : Fin 10, (digit k).isDigit = true := by decide
  exact hall ⟨n, h⟩

theorem digitValue_le_nine {c : Char} (h : c.isDigit = true) : digitValue c ≤ 9 := by
  have := (toNat_of_isDigit h).2
  rw [digitValue]
  omega

theorem isDigit_of_mem_zeros (n : Nat) : ∀ c ∈ List.replicate n '0', c.isDigit = true := by
  intro c hc
  rw [List.eq_of_mem_replicate hc]
  rfl

theorem isDigit_of_mem_digits (n : Nat) : ∀ c ∈ digits n, c.isDigit = true := by
  induction n using Nat.strongRecOn with
  | _ n ih =>
    intro c hc
    by_cases h : n < 10
    · rw [digits_of_lt_ten h, List.mem_singleton] at hc
      rw [hc]
      exact isDigit_digit h
    · rw [digits_of_ten_le (by omega), List.mem_append, List.mem_singleton] at hc
      rcases hc with hc | rfl
      · exact ih (n / 10) (by omega) c hc
      · exact isDigit_digit (by omega)

theorem digits_ne_nil (n : Nat) : digits n ≠ [] := by
  by_cases h : n < 10
  · rw [digits_of_lt_ten h]
    exact List.cons_ne_nil _ _
  · rw [digits_of_ten_le (by omega)]
    exact List.append_ne_nil_of_right_ne_nil _ (List.cons_ne_nil _ _)

theorem isNumberChar_of_mem_digits (n : Nat) : ∀ c ∈ digits n, isNumberChar c = true :=
  fun c hc => isNumberChar_of_isDigit (isDigit_of_mem_digits n c hc)

/-- The text of an integer has characters of numbers only. -/
theorem isNumberChar_of_mem_integerText (n : Int) :
    ∀ c ∈ (integerText n).toList, isNumberChar c = true := by
  rw [integerText, String.toList_ofList]
  split
  · exact List.forall_mem_cons.mpr ⟨rfl, isNumberChar_of_mem_digits n.natAbs⟩
  · exact isNumberChar_of_mem_digits n.natAbs

/-! ## Floats -/

theorem isMantissaChar_of_mem_digits (n : Nat) : ∀ c ∈ digits n, isMantissaChar c = true :=
  fun c hc => isMantissaChar_of_isDigit (isDigit_of_mem_digits n c hc)

theorem isMantissaChar_of_mem_replicate (n : Nat) :
    ∀ c ∈ List.replicate n '0', isMantissaChar c = true :=
  fun c hc => isMantissaChar_of_isDigit (isDigit_of_mem_zeros n c hc)

/-- A decimal without exponent has digits and a point only. -/
theorem isMantissaChar_of_mem_plain (d : Decimal) :
    ∀ c ∈ d.plain [], isMantissaChar c = true := by
  have hdigits := isMantissaChar_of_mem_digits d.coefficient
  have hzeros := isMantissaChar_of_mem_replicate
  rw [plain]
  dsimp only
  split
  · rw [List.append_nil, List.forall_mem_append]
    exact ⟨hdigits, hzeros _⟩
  split
  · rw [List.forall_mem_append, List.forall_mem_cons]
    exact ⟨fun c hc => hdigits c (List.mem_of_mem_take hc), rfl,
      fun c hc => hdigits c (List.mem_of_mem_drop hc)⟩
  · rw [List.forall_mem_cons, List.forall_mem_cons, List.forall_mem_append]
    exact ⟨rfl, rfl, hzeros _, hdigits⟩

/-- Exponent text is a mantissa and a power of ten. -/
theorem exists_mantissa (d : Decimal) :
    ∃ mantissa, mantissa ≠ [] ∧ (∀ c ∈ mantissa, isMantissaChar c = true)
      ∧ d.scientific = mantissa ++ 'e' :: (integerText d.order).toList := by
  have hdigits := isMantissaChar_of_mem_digits d.coefficient
  rw [scientific]
  cases hw : digits d.coefficient with
  | nil => exact absurd hw (digits_ne_nil d.coefficient)
  | cons first rest =>
    rw [hw, List.forall_mem_cons] at hdigits
    cases rest with
    | nil =>
      exact ⟨[first], List.cons_ne_nil _ _, List.forall_mem_singleton.mpr hdigits.1, rfl⟩
    | cons second rest =>
      refine ⟨first :: '.' :: second :: rest, List.cons_ne_nil _ _, ?_, rfl⟩
      rw [List.forall_mem_cons, List.forall_mem_cons]
      exact ⟨hdigits.1, rfl, hdigits.2⟩

theorem isNumberChar_of_mem_plain (d : Decimal) : ∀ c ∈ d.plain [], isNumberChar c = true :=
  fun c hc => isNumberChar_of_isMantissaChar (isMantissaChar_of_mem_plain d c hc)

/-- A decimal with an exponent has characters of numbers only. -/
theorem isNumberChar_of_mem_scientific (d : Decimal) :
    ∀ c ∈ d.scientific, isNumberChar c = true := by
  obtain ⟨mantissa, -, hmantissa, heq⟩ := d.exists_mantissa
  rw [heq, List.forall_mem_append, List.forall_mem_cons]
  exact ⟨fun c hc => isNumberChar_of_isMantissaChar (hmantissa c hc), rfl,
    isNumberChar_of_mem_integerText d.order⟩

end Decimal

theorem Binary64.isNumberChar_of_mem_literal {x : Binary64} {w : String} (h : x.literal = .ok w) :
    ∀ c ∈ w.toList, isNumberChar c = true := by
  rw [Binary64.literal] at h
  split at h
  · rw [← Except.ok.inj h, Binary64.text, String.toList_ofList]
    have hbody : ∀ c ∈ (if x.isPlain sqlNumber then x.shortest.plain sqlNumber.places
        else x.shortest.scientific), isNumberChar c = true := by
      split
      · exact Decimal.isNumberChar_of_mem_plain x.shortest
      · exact Decimal.isNumberChar_of_mem_scientific x.shortest
    split
    · exact List.forall_mem_cons.mpr ⟨rfl, hbody⟩
    · exact hbody
  · exact absurd h (by simp)

end SqlTemplate
