import Mathlib.Data.List.DropRight
import SqlTemplate.Proofs.Binary64.Decimals
import SqlTemplate.Proofs.Format.IntegerTexts

/-!
The significant digits of a numeral.

The zeros before the first digit that is not zero and behind the last one tell only where the point
is. Without them the digits are a number that has no zero at its end, and the numeral is that number
times a power of ten (`Numeral.exists_size_value`).

A decimal can be laid out in several ways. All of them denote it (`Decimal.Layout.size_value`), and
if it has no zero at its end, their significant digits are those of its coefficient
(`Decimal.Layout.significant`).
-/

set_option autoImplicit false

namespace SqlTemplate

open Decimal (ofDigits)

variable {run inner : List Char} {before after : Nat} {negative : Bool} {d : Decimal}
  {n : Numeral}

/-! ## Zeros around a run of digits -/

namespace Decimal

/-- Digits in front of others count as many places higher. -/
theorem ofDigits_append (run inner : List Char) :
    ofDigits (run ++ inner) = ofDigits run * 10 ^ inner.length + ofDigits inner := by
  induction inner using List.reverseRecOn with
  | nil =>
    rw [List.append_nil, List.length_nil, Nat.pow_zero, Nat.mul_one]
    rfl
  | append_singleton inner c ih =>
    rw [← List.append_assoc, ofDigits_append_singleton, ofDigits_append_singleton, ih,
      List.length_append, List.length_singleton]
    ring

/-- Zeros before the digits count for nothing, and each behind them for a factor of ten. -/
theorem ofDigits_zeros_around (before after : Nat) (inner : List Char) :
    ofDigits (List.replicate before '0' ++ (inner ++ List.replicate after '0'))
      = ofDigits inner * 10 ^ after := by
  have hbefore : ofDigits (List.replicate before '0') = 0 := by
    have hzeros := ofDigits_append_zeros [] before
    rwa [List.nil_append, show ofDigits [] = 0 from rfl, Nat.zero_mul] at hzeros
  rw [ofDigits_append, hbefore, Nat.zero_mul, Nat.zero_add, ofDigits_append_zeros]

/-- The last digit of a number is its rest by ten. -/
theorem getLast?_digits (k : Nat) : (digits k).getLast? = some (digit (k % 10)) := by
  by_cases h : k < 10
  · rw [digits_of_lt_ten h, Nat.mod_eq_of_lt h, List.getLast?_singleton]
  · rw [digits_of_ten_le (not_lt.mp h), List.getLast?_append, List.getLast?_singleton,
      Option.some_or]

/-- If a number has no zero at its end, it has none at its head. -/
theorem ne_zero_of_head? {k : Nat} (hlast : k % 10 ≠ 0) :
    ∀ c, (digits k).head? = some c → c ≠ '0' := by
  intro c hc
  obtain ⟨first, rest, hcons, hfirst⟩ :=
    exists_cons_digits (n := k) fun hzero => hlast (by rw [hzero])
  rw [hcons] at hc
  rwa [← Option.some.inj hc]

/-- If a number has no zero at its end, no tail of its digits has. -/
theorem ne_zero_of_getLast? {k : Nat} (hlast : k % 10 ≠ 0) (h : run <:+ digits k) :
    ∀ c, run.getLast? = some c → c ≠ '0' := by
  intro c hc
  obtain ⟨front, hfront⟩ := h
  have hend := getLast?_digits k
  rw [← hfront, List.getLast?_append, hc, Option.some_or] at hend
  rw [Option.some.inj hend]
  exact digit_ne_zero (Nat.mod_lt _ (by decide)) hlast

end Decimal

/-- A run of digits from the first to the last one that is not zero. -/
def significant (run : List Char) : List Char :=
  (run.dropWhile (· == '0')).rdropWhile (· == '0')

theorem eq_replicate_of_beq_zero (h : ∀ c ∈ run, (c == '0') = true) :
    run = List.replicate run.length '0' :=
  List.eq_replicate_of_mem fun c hc => eq_of_beq (h c hc)

/-- Around the significant digits there are only zeros. -/
theorem exists_zeros_around (run : List Char) :
    ∃ before after,
      run = List.replicate before '0' ++ (significant run ++ List.replicate after '0') := by
  have hfront := List.takeWhile_append_dropWhile (p := (· == '0')) (l := run)
  have hback := List.rdropWhile_append_rtakeWhile (p := (· == '0'))
    (l := run.dropWhile (· == '0'))
  have hbefore := eq_replicate_of_beq_zero
    (List.all_eq_true.mp (List.all_takeWhile (p := (· == '0')) (l := run)))
  have hafter := eq_replicate_of_beq_zero fun c hc =>
    List.mem_rtakeWhile_imp (p := (· == '0')) (l := run.dropWhile (· == '0')) hc
  generalize (run.takeWhile (· == '0')).length = before at hbefore
  generalize ((run.dropWhile (· == '0')).rtakeWhile (· == '0')).length = after at hafter
  refine ⟨before, after, ?_⟩
  rw [significant, ← hafter, hback, ← hbefore, hfront]

/-- Zeros have no significant digits. -/
theorem significant_zeros (k : Nat) : significant (List.replicate k '0') = [] := by
  have hnone : (List.replicate k '0').dropWhile (· == '0') = [] := by
    rw [List.dropWhile_eq_nil_iff]
    intro c hc
    rw [List.eq_of_mem_replicate hc]
    rfl
  rw [significant, hnone, List.rdropWhile_nil]

/-- Zeros at the end do not matter where zeros are dropped there. -/
theorem rdropWhile_append_zeros (run : List Char) (k : Nat) :
    (run ++ List.replicate k '0').rdropWhile (· == '0') = run.rdropWhile (· == '0') := by
  induction k with
  | zero => rw [List.replicate_zero, List.append_nil]
  | succ k ih =>
    rw [List.replicate_succ', ← List.append_assoc, List.rdropWhile_concat_pos _ _ _ rfl, ih]

/-- Digits with neither a zero at the head nor one at the end are found between zeros. -/
theorem significant_zeros_around (hhead : ∀ c, inner.head? = some c → c ≠ '0')
    (hlast : ∀ c, inner.getLast? = some c → c ≠ '0') (before after : Nat) :
    significant (List.replicate before '0' ++ (inner ++ List.replicate after '0')) = inner := by
  rcases List.eq_nil_or_concat' inner with rfl | ⟨front, last, rfl⟩
  · rw [List.nil_append, List.replicate_append_replicate, significant_zeros]
  · have hzeros : ∀ c ∈ List.replicate before '0', (c == '0') = true := by
      intro c hc
      rw [List.eq_of_mem_replicate hc]
      rfl
    have hlast' : ¬ (last == '0') = true := by
      rw [beq_iff_eq]
      exact hlast last (by rw [List.getLast?_append, List.getLast?_singleton, Option.some_or])
    have hstop : (front ++ [last] ++ List.replicate after '0').dropWhile (· == '0')
        = front ++ [last] ++ List.replicate after '0' := by
      cases front with
      | nil => exact List.dropWhile_cons_of_neg hlast'
      | cons c front =>
        refine List.dropWhile_cons_of_neg ?_
        rw [beq_iff_eq]
        exact hhead c rfl
    -- The scan from the front stops where the digits begin, the one from the end where they end.
    rw [significant, List.dropWhile_append_of_pos hzeros, hstop, rdropWhile_append_zeros]
    exact List.rdropWhile_concat_neg _ _ _ hlast'

/-! ## Numerals -/

/-- The digits of a numeral from the first to the last one that is not zero. -/
def Numeral.significant (n : Numeral) : List Char :=
  SqlTemplate.significant (n.whole ++ n.fractionDigits)

/-- A numeral whose digits are given up to zeros around them. -/
theorem Numeral.size_value_of_zeros_around
    (h : n.whole ++ n.fractionDigits
      = List.replicate before '0' ++ (inner ++ List.replicate after '0')) :
    n.size.value
      = (Decimal.mk (ofDigits inner)
          (n.exponent.getD 0 - n.fractionDigits.length + after)).value := by
  rw [size, h, Decimal.ofDigits_zeros_around, Decimal.value, Decimal.value]
  dsimp only
  rw [zpow_add₀ (by norm_num), zpow_natCast]
  push_cast
  ring

/-- **A numeral is its significant digits, times a power of ten.** -/
theorem Numeral.exists_size_value (n : Numeral) :
    ∃ power, n.size.value = (Decimal.mk (ofDigits n.significant) power).value := by
  obtain ⟨before, after, h⟩ := exists_zeros_around (n.whole ++ n.fractionDigits)
  exact ⟨_, Numeral.size_value_of_zeros_around h⟩

/-- Significant digits are digits. -/
theorem Numeral.isDigit_of_mem_significant
    (h : ∀ c ∈ n.whole ++ n.fractionDigits, c.isDigit = true) :
    ∀ c ∈ n.significant, c.isDigit = true := by
  intro c hc
  rw [significant, SqlTemplate.significant] at hc
  exact h c ((List.dropWhile_suffix _).mem ((List.rdropWhile_prefix _ _).mem hc))

/-! ## Layouts -/

namespace Decimal

/-- The digits of a layout are those of the coefficient, up to zeros around them. -/
theorem Layout.exists_zeros (h : d.Layout negative n) :
    ∃ before after : Nat,
      n.whole ++ n.fractionDigits = List.replicate before '0'
          ++ (Decimal.digits d.coefficient ++ List.replicate after '0')
        ∧ n.exponent.getD 0 - n.fractionDigits.length + after = d.exponent := by
  -- Only a whole number has zeros behind its digits, and only one below all digits has zeros before
  -- them.
  cases h with
  | @whole zeros hexponent =>
    refine ⟨0, zeros, ?_, ?_⟩
    · exact List.append_nil _
    · rw [hexponent]
      simp [Numeral.fractionDigits]
  | mixed hdigits _ _ hexponent =>
    refine ⟨0, 0, ?_, ?_⟩
    · rw [hdigits, List.replicate_zero, List.append_nil]
      rfl
    · rw [hexponent]
      simp [Numeral.fractionDigits]
  | @below zeros hexponent =>
    refine ⟨zeros + 1, 0, ?_, ?_⟩
    · rw [List.replicate_zero, List.append_nil, List.replicate_succ]
      rfl
    · rw [hexponent]
      simp [Numeral.fractionDigits]
  | single hdigits =>
    refine ⟨0, 0, ?_, ?_⟩
    · rw [hdigits]
      rfl
    · rw [order, digitCount, hdigits]
      simp [Numeral.fractionDigits]
  | pointed hdigits =>
    refine ⟨0, 0, ?_, ?_⟩
    · rw [hdigits, List.replicate_zero, List.append_nil]
      rfl
    · rw [order, digitCount, hdigits, List.length_cons]
      simp only [Numeral.fractionDigits, Option.getD_some]
      omega

/-- **A layout denotes its decimal.** -/
theorem Layout.size_value (h : d.Layout negative n) : n.size.value = d.value := by
  obtain ⟨before, after, hdigits, hexponent⟩ := h.exists_zeros
  rw [Numeral.size_value_of_zeros_around hdigits, hexponent, ofDigits_digits]

/-- The significant digits of a layout are the digits of the coefficient, if this has no zero at
its end. -/
theorem Layout.significant (h : d.Layout negative n) (hlast : d.coefficient % 10 ≠ 0) :
    n.significant = Decimal.digits d.coefficient := by
  obtain ⟨before, after, hdigits, -⟩ := h.exists_zeros
  rw [Numeral.significant, hdigits]
  exact significant_zeros_around (ne_zero_of_head? hlast)
    (ne_zero_of_getLast? hlast (List.suffix_refl _)) before after

/-- A layout of zero has no significant digits. -/
theorem Layout.significant_of_zero (h : d.Layout negative n) (hzero : d.coefficient = 0) :
    n.significant = [] := by
  obtain ⟨before, after, hdigits, -⟩ := h.exists_zeros
  have hnone : Decimal.digits d.coefficient = List.replicate 1 '0' := by
    rw [hzero]
    exact digits_of_lt_ten (by decide)
  rw [Numeral.significant, hdigits, hnone, List.replicate_append_replicate,
    List.replicate_append_replicate, significant_zeros]

end Decimal

end SqlTemplate
