/-
# Decimal digits

Natural numbers written in decimal, most significant digit first, with the reading that undoes it.
Texts are lists of characters here, so that statements about them are statements about lists.

All that is written in digits goes through this module: the fields of a date, padded with zeros, the
mantissa and exponent of a double, and integers; and all that is read in digits through `value`.

* `value_digits`, `value_padded`: a number is read back from its digits, leading zeros or not;
* `length_padded`: a number below the width's power of ten fills exactly the width;
* `dropTrailingZeros_append`: trimming loses only zeros.
-/
namespace Interchange
namespace Decimal

/-! ## 1. Writing and reading -/

/-- The decimal digits of a number; zero has one digit. -/
def digits (n : Nat) : List Char := Nat.toDigits 10 n

/-- The number that a run of decimal digits denotes; no digits denote zero. -/
def value (text : List Char) : Nat := Nat.ofDigitChars 10 text 0

/-- The decimal digits of a number with zeros in front up to a least width. -/
def padded (width n : Nat) : List Char :=
  List.replicate (width - (digits n).length) '0' ++ digits n

/-- The decimal text of an integer, with a minus sign when it is negative. -/
def signed (n : Int) : List Char := if n < 0 then '-' :: digits n.natAbs else digits n.natAbs

/-- A power of ten, under a name that means the same number with Mathlib in scope and without. -/
def powerOfTen (k : Nat) : Nat := Nat.pow 10 k

@[simp] theorem value_nil : value [] = 0 := rfl

theorem value_append (a b : List Char) :
    value (a ++ b) = powerOfTen b.length * value a + value b := by
  unfold value
  rw [Nat.ofDigitChars_append, Nat.ofDigitChars_eq_ofDigitChars_zero]
  rfl

/-- **A number is read back from its digits.** -/
@[simp] theorem value_digits (n : Nat) : value (digits n) = n := Nat.ofDigitChars_ten_toDigits

@[simp] theorem value_replicate_zero (k : Nat) : value (List.replicate k '0') = 0 := by
  unfold value
  rw [Nat.ofDigitChars_replicate_zero, Nat.mul_zero]

@[simp] theorem value_padded (width n : Nat) : value (padded width n) = n := by
  unfold padded
  rw [value_append, value_replicate_zero, value_digits, Nat.mul_zero, Nat.zero_add]

theorem digits_ne_nil (n : Nat) : digits n ≠ [] := Nat.toDigits_ne_nil

theorem isDigit_of_mem_digits {n : Nat} {c : Char} (h : c ∈ digits n) : c.isDigit = true :=
  Nat.isDigit_of_mem_toDigits (by decide) (by decide) h

theorem isDigit_of_mem_padded {width n : Nat} {c : Char} (h : c ∈ padded width n) :
    c.isDigit = true := by
  rcases List.mem_append.1 h with h | h
  · rw [(List.mem_replicate.1 h).2]
    rfl
  · exact isDigit_of_mem_digits h

theorem length_digits_le_iff {n k : Nat} (h : 0 < k) : (digits n).length ≤ k ↔ n < powerOfTen k :=
  Nat.length_toDigits_le_iff (by decide) h

/-- **A number that fits the width fills it exactly.** -/
theorem length_padded {width n : Nat} (hw : 0 < width) (h : n < powerOfTen width) :
    (padded width n).length = width := by
  have := (length_digits_le_iff hw).2 h
  simp only [padded, List.length_append, List.length_replicate]
  omega

/-! ## 2. Trailing zeros -/

/-- The text without the zeros at its end; nothing may be left. -/
def dropTrailingZeros : List Char → List Char
  | [] => []
  | c :: rest =>
    match dropTrailingZeros rest with
    | [] => if c = '0' then [] else [c]
    | d :: kept => c :: d :: kept

/-- Trimming loses only zeros. -/
theorem dropTrailingZeros_append (text : List Char) :
    ∃ k, text = dropTrailingZeros text ++ List.replicate k '0' := by
  induction text with
  | nil => exact ⟨0, rfl⟩
  | cons c rest ih =>
    obtain ⟨k, hk⟩ := ih
    unfold dropTrailingZeros
    split
    · next h =>
      rw [h, List.nil_append] at hk
      split
      · next hc => exact ⟨k + 1, by rw [hc, hk]; rfl⟩
      · exact ⟨k, by rw [hk]; rfl⟩
    · next d kept h =>
      rw [h] at hk
      exact ⟨k, by rw [hk]; rfl⟩

/-- No zero is left at the end. -/
theorem getLast?_dropTrailingZeros (text : List Char) :
    (dropTrailingZeros text).getLast? ≠ some '0' := by
  induction text with
  | nil => simp [dropTrailingZeros]
  | cons c rest ih =>
    unfold dropTrailingZeros
    split
    · split
      · simp
      · next hc => simpa using hc
    · next d kept h =>
      rw [h] at ih
      rw [List.getLast?_cons_cons]
      exact ih

/-- Padding, trimming and signs. -/
example : padded 4 76 = ['0', '0', '7', '6'] ∧ dropTrailingZeros ['1', '0', '5', '0', '0'] =
    ['1', '0', '5'] ∧ signed (-30) = ['-', '3', '0'] ∧ value ['0', '9', '4'] = 94 := by decide

end Decimal
end Interchange
