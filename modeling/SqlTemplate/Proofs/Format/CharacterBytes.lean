import SqlTemplate.Proofs.Format.NumberCharacters

/-!
Characters and their bytes.

In UTF-8 a character below U+0080 takes one byte, its code, and all bytes of any other character are
at least 128. So behind short characters places in the bytes are places in the characters
(`getElem?_encode`), and a byte of a short character shows that character
(`head?_encode_eq_some_iff`).
-/

set_option autoImplicit false

namespace SqlTemplate

variable {pre l : List Char} {c : Char}

/-! ## Bytes -/

/-- The bytes of a text in UTF-8. -/
def encode (text : List Char) : List UInt8 := text.flatMap String.utf8EncodeChar

/-- Whether a byte is that of a digit. -/
def isDigitByte (b : UInt8) : Bool := '0'.toUInt8 ≤ b && b ≤ '9'.toUInt8

/-- A text whose characters take one byte each. -/
def Ascii (text : List Char) : Prop := ∀ c ∈ text, c.toNat < 128

/-- Two texts are ASCII together exactly if each of them is. -/
theorem ascii_append : Ascii (pre ++ l) ↔ Ascii pre ∧ Ascii l := List.forall_mem_append

theorem ascii_of_isDigit (h : ∀ c ∈ l, c.isDigit = true) : Ascii l := by
  intro c hc
  have := toNat_of_isDigit (h c hc)
  omega

theorem toNat_toUInt8 (h : c.toNat < 128) : c.toUInt8.toNat = c.toNat := by
  show c.toNat % 2 ^ 8 = c.toNat
  omega

/-- An ASCII character is one byte. -/
theorem encodeChar_of_lt (h : c.toNat < 128) : String.utf8EncodeChar c = [c.toUInt8] := by
  have hle : c.val.toNat ≤ 127 := Nat.le_of_lt_succ h
  rw [String.utf8EncodeChar]
  simp only [if_pos hle]
  rfl

/-- No byte of a longer character is one of a shorter. -/
theorem exists_encodeChar_of_le (h : 128 ≤ c.toNat) :
    ∃ b bytes, String.utf8EncodeChar c = b :: bytes ∧ 128 ≤ b.toNat := by
  have hnot : ¬ c.val.toNat ≤ 127 := Nat.not_le.mpr h
  rw [String.utf8EncodeChar]
  simp only [if_neg hnot]
  split
  · refine ⟨_, _, rfl, ?_⟩
    rw [UInt8.toNat_ofNat']
    omega
  split
  · refine ⟨_, _, rfl, ?_⟩
    rw [UInt8.toNat_ofNat']
    omega
  · refine ⟨_, _, rfl, ?_⟩
    rw [UInt8.toNat_ofNat']
    omega

theorem encode_cons (c : Char) (l : List Char) :
    encode (c :: l) = String.utf8EncodeChar c ++ encode l := List.flatMap_cons

theorem encode_append (l r : List Char) : encode (l ++ r) = encode l ++ encode r :=
  List.flatMap_append

/-- An ASCII text has one byte for each character. -/
theorem encode_of_ascii (h : Ascii pre) : encode pre = pre.map Char.toUInt8 := by
  induction pre with
  | nil => rfl
  | cons c pre ih =>
    obtain ⟨hc, hpre⟩ := List.forall_mem_cons.mp h
    rw [encode_cons, encodeChar_of_lt hc, ih hpre]
    rfl

/-- Behind short characters the places of the bytes are those of the characters. -/
theorem getElem?_encode (h : Ascii pre) (l : List Char) :
    (encode (pre ++ l))[pre.length]? = (encode l).head? := by
  have hlength : (encode pre).length = pre.length := by rw [encode_of_ascii h, List.length_map]
  rw [encode_append, List.getElem?_append_right (Nat.le_of_eq hlength), hlength, Nat.sub_self,
    List.head?_eq_getElem?]

/-- As many bytes as an ASCII head has characters encode this head. -/
theorem drop_encode (h : Ascii pre) (l : List Char) :
    (encode (pre ++ l)).drop pre.length = encode l := by
  rw [encode_append, List.drop_left']
  rw [encode_of_ascii h, List.length_map]

/-- The bytes of an ASCII head are there. -/
theorem length_le_encode (h : Ascii pre) (l : List Char) :
    pre.length ≤ (encode (pre ++ l)).length := by
  rw [encode_append, encode_of_ascii h, List.length_append, List.length_map]
  exact Nat.le_add_right _ _

/-- A byte of a short character at the head shows this character at the head. -/
theorem head?_encode_eq_some_iff {a : Char} (ha : a.toNat < 128) :
    (encode l).head? = some a.toUInt8 ↔ l.head? = some a := by
  cases l with
  | nil => exact iff_of_false nofun nofun
  | cons c l =>
    rw [encode_cons, List.head?_cons, Option.some.injEq]
    by_cases hc : c.toNat < 128
    · rw [encodeChar_of_lt hc, List.singleton_append, List.head?_cons, Option.some.injEq,
        ← UInt8.toNat_inj, toNat_toUInt8 hc, toNat_toUInt8 ha]
      exact Char.toNat_inj
    · obtain ⟨b, bytes, hbytes, hb⟩ := exists_encodeChar_of_le (Nat.not_lt.mp hc)
      rw [hbytes, List.cons_append, List.head?_cons, Option.some.injEq, ← UInt8.toNat_inj,
        toNat_toUInt8 ha]
      refine iff_of_false (by omega) ?_
      rintro rfl
      exact hc ha

/-- The bytes of digits, by their number. -/
theorem isDigitByte_iff {b : UInt8} : isDigitByte b = true ↔ 48 ≤ b.toNat ∧ b.toNat ≤ 57 := by
  rw [isDigitByte, Bool.and_eq_true, decide_eq_true_eq, decide_eq_true_eq]
  exact Iff.rfl

theorem isDigit_iff : c.isDigit = true ↔ 48 ≤ c.toNat ∧ c.toNat ≤ 57 := by
  rw [Char.isDigit, Bool.and_eq_true, decide_eq_true_eq, decide_eq_true_eq]
  exact Iff.rfl

/-- The byte of an ASCII character is that of a digit if the character is one. -/
theorem isDigitByte_toUInt8 (h : c.toNat < 128) : isDigitByte c.toUInt8 = c.isDigit := by
  rw [Bool.eq_iff_iff, isDigitByte_iff, isDigit_iff, toNat_toUInt8 h]

/-- Counting digits in bytes is counting them in characters. -/
theorem length_takeWhile_encode (l : List Char) :
    ((encode l).takeWhile isDigitByte).length = (l.takeWhile Char.isDigit).length := by
  induction l with
  | nil => rfl
  | cons c l ih =>
    rw [encode_cons]
    -- A character beyond ASCII is no digit, and its first byte is none either.
    by_cases hc : c.toNat < 128
    · rw [encodeChar_of_lt hc, List.singleton_append, List.takeWhile_cons, List.takeWhile_cons,
        isDigitByte_toUInt8 hc]
      split
      · rw [List.length_cons, List.length_cons, ih]
      · rfl
    · obtain ⟨b, bytes, hbytes, hb⟩ := exists_encodeChar_of_le (Nat.not_lt.mp hc)
      have hdigit : ¬ c.isDigit = true := by
        rw [isDigit_iff]
        omega
      have hbyte : ¬ isDigitByte b = true := by
        rw [isDigitByte_iff]
        omega
      rw [hbytes, List.cons_append, List.takeWhile_cons_of_neg hbyte,
        List.takeWhile_cons_of_neg hdigit, List.length_nil, List.length_nil]

end SqlTemplate
