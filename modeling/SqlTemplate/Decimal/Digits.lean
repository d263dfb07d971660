/-!
Natural numbers as decimal digits.

`digits` writes a number without superfluous zeros, `ofDigits` reads any run of digits. Main
statement: reading what was written gives the number back (`ofDigits_digits`).
-/

set_option autoImplicit false

namespace SqlTemplate.Decimal

/-- The digit of a number below ten. -/
def digit (n : Nat) : Char :=
  Char.ofNat (48 + n)

/-- The value of a digit. -/
def digitValue (c : Char) : Nat :=
  c.toNat - 48

/-- The decimal digits of `n`, in front of `tail`. -/
def digitsOnto (n : Nat) (tail : List Char) : List Char :=
  if n < 10 then digit n :: tail
  else digitsOnto (n / 10) (digit (n % 10) :: tail)
termination_by n
decreasing_by omega

/-- The decimal digits of a number, the highest first; zero has one. -/
def digits (n : Nat) : List Char :=
  digitsOnto n []

/-- How many decimal digits a number has. -/
def digitCount (n : Nat) : Nat :=
  (digits n).length

/-- The number that a run of digits denotes, leading zeros included; none for no digits. -/
def ofDigits (run : List Char) : Nat :=
  run.foldl (fun n c => 10 * n + digitValue c) 0

/-- An integer in decimal, with a minus sign when it is negative. -/
def integerText (n : Int) : String :=
  String.ofList (if n < 0 then '-' :: digits n.natAbs else digits n.natAbs)

/-! ## Writing, then reading -/

theorem digitValue_digit {n : Nat} (h : n < 10) : digitValue (digit n) = n := by
  have : ∀ k : Fin 10, digitValue (digit k) = k := by decide
  exact this ⟨n, h⟩

/-- The digits of `n` stand in front of the tail and nothing else changes. -/
theorem digitsOnto_eq (n : Nat) (tail : List Char) : digitsOnto n tail = digits n ++ tail := by
  induction n using Nat.strongRecOn generalizing tail with
  | _ n ih =>
    rw [digits, digitsOnto.eq_def n tail, digitsOnto.eq_def n []]
    split
    · rfl
    · rw [ih (n / 10) (by omega), ih (n / 10) (by omega) [digit (n % 10)]]
      simp

/-- A number of two digits or more is its leading digits followed by its last one. -/
theorem digits_of_ten_le {n : Nat} (h : 10 ≤ n) :
    digits n = digits (n / 10) ++ [digit (n % 10)] := by
  rw [digits, digitsOnto, if_neg (by omega), digitsOnto_eq]

/-- A number below ten has one digit. -/
theorem digits_of_lt_ten {n : Nat} (h : n < 10) : digits n = [digit n] := by
  rw [digits, digitsOnto, if_pos h]

/-- One more digit makes the number ten times larger, plus the digit. -/
theorem ofDigits_append_singleton (run : List Char) (c : Char) :
    ofDigits (run ++ [c]) = 10 * ofDigits run + digitValue c := by
  simp [ofDigits, List.foldl_append]

/-- Digits read back as the number they were written for. -/
theorem ofDigits_digits (n : Nat) : ofDigits (digits n) = n := by
  induction n using Nat.strongRecOn with
  | _ n ih =>
    by_cases h : n < 10
    · rw [digits_of_lt_ten h]
      simp [ofDigits, digitValue_digit h]
    · rw [digits_of_ten_le (by omega), ofDigits_append_singleton, ih (n / 10) (by omega),
        digitValue_digit (by omega)]
      omega

end SqlTemplate.Decimal
