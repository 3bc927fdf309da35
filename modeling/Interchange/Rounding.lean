/-
# Rounding a quotient to a whole number

The library rounds in one way only: to the nearest whole number, and of two at equal distance to the
even one.  `roundHalfEven` is that rule on quotients of naturals; binary numbers and decimal texts
both use it.  It is how a decimal text becomes a double, how a double is written with a given number
of digits, and how every sum and product of doubles is rounded.

* `roundHalfEven_mul`: a quotient that divides out is kept;
* `two_mul_roundHalfEven_le`, `le_two_mul_roundHalfEven`: the result is within half;
* `roundHalfEven_tie`: a tie goes to the even neighbour.
-/
namespace Interchange

/-- The natural number nearest to `num / den`; of two at equal distance, the even one. -/
def roundHalfEven (num den : Nat) : Nat :=
  let quotient := num / den
  let remainder := num % den
  if 2 * remainder < den ∨ (2 * remainder = den ∧ quotient % 2 = 0) then quotient
  else quotient + 1

theorem roundHalfEven_mul (n : Nat) {den : Nat} (h : 0 < den) :
    roundHalfEven (n * den) den = n := by
  simp [roundHalfEven, Nat.mul_div_cancel _ h, h]

/-- The rounded quotient is at most half above the exact one. -/
theorem two_mul_roundHalfEven_le (num : Nat) {den : Nat} (h : 0 < den) :
    2 * (roundHalfEven num den * den) ≤ 2 * num + den := by
  have hd := Nat.div_add_mod num den
  have hm := Nat.mod_lt num h
  rw [Nat.mul_comm] at hd
  simp only [roundHalfEven]
  split
  · omega
  · rw [Nat.add_mul]
    omega

/-- The rounded quotient is at most half below the exact one. -/
theorem le_two_mul_roundHalfEven (num : Nat) {den : Nat} (h : 0 < den) :
    2 * num ≤ 2 * (roundHalfEven num den * den) + den := by
  have hd := Nat.div_add_mod num den
  have hm := Nat.mod_lt num h
  rw [Nat.mul_comm] at hd
  simp only [roundHalfEven]
  split
  · omega
  · rw [Nat.add_mul]
    omega

/-- **A tie goes to the even neighbour.** -/
theorem roundHalfEven_tie {num den : Nat} (h : 2 * (num % den) = den) :
    roundHalfEven num den % 2 = 0 := by
  simp only [roundHalfEven]
  split <;> omega

end Interchange
