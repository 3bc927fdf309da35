/-
# How near a number is read back

The text of a number in general notation is read back in two roundings: to sixteen significant
digits when it is written, and to the nearest number when it is read.  The second leads no farther
away than the first did, because the number itself is one of those to choose from.  An integer is
read exactly, so its text is only rounded once.

* `Denotes.exists_value?`: what a literal denotes is as near to its decimal as any number;
* `value?_read_general`: a number is read back with its sign, and within 10 ^ -15 of itself.
-/
import Interchange.Proofs.Numeral.General

namespace Interchange
namespace Literal

open Double

/-! ## 1. The value of a literal -/

/-- The number that a classified literal is, if it is a finite one, of whatever kind. -/
def value? : Literal → Option ℚ
  | .integer n => some n.toInt
  | .long n => some n.toInt
  | .number (.finite x) => some x.value
  | .number _ => none

namespace Spelling

theorem decimal_of_isInteger {s : Spelling} (h : s.IsInteger) :
    s.decimal = Decimal.value s.whole := by
  rw [decimal, h.1, h.2, Decimal.value_nil, Nat.cast_zero, zero_div, add_zero, zpow_zero, mul_one]

theorem signed_decimal_of_isInteger {s : Spelling} (h : s.IsInteger) :
    signed s.negative s.decimal = s.integer := by
  rw [decimal_of_isInteger h, signed, integer]
  split <;> push_cast <;> rfl

/-- **What a literal denotes is as near to its decimal as any number**, below the limit from which
on it is an infinity. -/
theorem Denotes.exists_value? {s : Spelling} {literal : Literal} (h : s.Denotes literal)
    (hlimit : |s.decimal| < overflowLimit) :
    ∃ q, literal.value? = some q ∧ ∀ x : Finite,
      |q - signed s.negative s.decimal| ≤ |x.value - signed s.negative s.decimal| := by
  -- an integer is the decimal itself
  have hexact : s.IsInteger → ∀ n : Int, n = s.integer → ∀ x : Finite,
      |(n : ℚ) - signed s.negative s.decimal| ≤ |x.value - signed s.negative s.decimal| := by
    intro hs n hn x
    rw [signed_decimal_of_isInteger hs, hn, sub_self, abs_zero]
    exact abs_nonneg _
  match literal, h with
  | .integer n, h => exact ⟨n.toInt, rfl, hexact h.1 n.toInt h.2⟩
  | .long n, h => exact ⟨n.toInt, rfl, hexact h.1 n.toInt h.2.1⟩
  | .number (.nan _), h => exact absurd h.2.1 (by simp [isNaN])
  | .number (.infinity _), h =>
    have hfar := h.2.2.2
    rw [abs_signed] at hfar
    exact absurd hlimit (not_lt.mpr hfar)
  | .number (.finite y), h => exact ⟨y.value, rfl, fun x => (h.2.2.2.2 x).1⟩

end Spelling

/-! ## 2. Reading general notation -/

theorem read_of_greedy {s : Spelling} (h : s.Greedy []) : read s.text = s.literal := by
  have hscan : Spelling.scan s.text = (s, []) :=
    Spelling.scan_eq_iff.mpr ⟨(List.append_nil s.text).symm, h⟩
  rw [read, hscan]

theorem signed_abs_value (x : Finite) : signed x.negative |x.value| = x.value := by
  rw [Finite.abs_value, ← Finite.value_eq]

/-- The largest number of sixteen digits is a unit of its last digit away from overflow. -/
theorem add_lt_overflowLimit {q : ℚ} (h : q < 1797693134862315 * 10 ^ 293) :
    q + 10 ^ (293 : Int) / 2 < overflowLimit := by
  have hnat : 2 * 1797693134862315 * 10 ^ 293 + 10 ^ 293 + 2 * 2 ^ 970 < 2 * 2 ^ 1024 := by
    decide +kernel
  have hcast : 2 * 1797693134862315 * (10 : ℚ) ^ 293 + 10 ^ (293 : Int) + 2 * 2 ^ 970 <
      2 * 2 ^ 1024 := by
    exact_mod_cast hnat
  unfold overflowLimit
  generalize (2 : ℚ) ^ 1024 = limit at *
  generalize (2 : ℚ) ^ 970 = step at *
  generalize (10 : ℚ) ^ 293 = unit at *
  generalize (10 : ℚ) ^ (293 : Int) = last at *
  linarith

/-- What is nearer to a number than zero has its sign. -/
theorem mul_pos_of_abs_sub_lt {q x : ℚ} (h : |q - x| < |x|) : 0 < q * x := by
  have hsquare := sq_lt_sq.mpr h
  nlinarith [sq_nonneg q]

/-- **A number is read back from its text with its sign, and within 10 ^ -15 of itself**, subnormal
numbers included. -/
theorem value?_read_general {x : Finite} (hx : x.value ≠ 0)
    (hlimit : |x.value| < 1797693134862315 * 10 ^ 293) :
    ∃ q, (read (Double.finite x).general).value? = some q ∧ 0 < q * x.value ∧
      |q - x.value| ≤ 1 / 10 ^ 15 * |x.value| := by
  have hcode := (Finite.value_eq_zero_iff x).not.mp hx
  obtain ⟨s, htext, hsign, hs⟩ := exists_isGeneral hcode
  obtain ⟨e, -, hlead, -⟩ := id hs.significant
  have hunit := hlead.unit_le Decimal.precision
  have hwritten : |signed s.negative s.decimal - x.value| ≤
      10 ^ (e - ((Decimal.precision : Int) - 1)) / 2 := by
    rw [← signed_abs_value x, ← hsign, signed_sub, abs_signed]
    exact hs.significant.abs_sub_le hlead
  have hfinite : |s.decimal| < overflowLimit := by
    have hlast : (10 : ℚ) ^ (e - ((Decimal.precision : Int) - 1)) ≤ 10 ^ (293 : Int) := by
      obtain ⟨-, hhigh⟩ := leading_bounds hcode hlead
      refine zpow_le_zpow_right₀ (by norm_num) ?_
      have hprecision : (Decimal.precision : Int) = 16 := rfl
      omega
    have habs := abs_sub_abs_le_abs_sub (signed s.negative s.decimal) x.value
    rw [abs_signed] at habs
    exact lt_of_le_of_lt (by linarith) (add_lt_overflowLimit hlimit)
  obtain ⟨q, hq, hnear⟩ := s.denotes_literal.exists_value? hfinite
  have hclose : |q - x.value| ≤ 1 / 10 ^ 15 * |x.value| := by
    -- the second rounding goes no farther than back to the number
    have hread := hnear x
    rw [abs_sub_comm x.value] at hread
    calc |q - x.value|
        ≤ |q - signed s.negative s.decimal| + |signed s.negative s.decimal - x.value| :=
          abs_sub_le q (signed s.negative s.decimal) x.value
      _ ≤ 10 ^ (e - ((Decimal.precision : Int) - 1)) := by linarith
      _ ≤ 1 / 10 ^ 15 * |x.value| := hunit
  refine ⟨q, by rw [← htext, read_of_greedy hs.greedy, hq], ?_, hclose⟩
  have hpos := abs_pos.mpr hx
  exact mul_pos_of_abs_sub_lt (by linarith)

/-- The least positive number. -/
theorem value?_read_general_least :
    let x : Finite := ⟨false, 1, by decide⟩
    x.value ≠ 0 ∧ |x.value| < 1797693134862315 * 10 ^ 293 ∧
      (Double.finite x).general = "4.940656458412465e-324".toList ∧
      ∃ q, (read "4.940656458412465e-324".toList).value? = some q ∧ 0 < q * x.value ∧
        |q - x.value| ≤ 1 / 10 ^ 15 * |x.value| := by
  intro x
  have hx : x.value ≠ 0 := (Finite.value_eq_zero_iff x).not.mpr (by decide)
  have hlimit : |x.value| < 1797693134862315 * 10 ^ 293 := by decide +kernel
  have htext : (Double.finite x).general = "4.940656458412465e-324".toList := by decide +kernel
  have hread := value?_read_general hx hlimit
  rw [htext] at hread
  exact ⟨hx, hlimit, htext, hread⟩

end Literal
end Interchange
