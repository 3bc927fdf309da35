/-
# Rounding to significant digits

The leading exponent of a positive number is that of the greatest power of ten not above it.
Counted from there, so many significant digits end at a unit, and rounding to them takes the nearest
whole number of that unit, a tie going to the even one.  `IsSignificant` says this of rationals,
without a program; `toSignificant` computes it.

* `leadingExponent_spec`: the leading exponent of a quotient;
* `toSignificant_spec`: the digits, and that the places behind the point show the same digits even
  where rounding carries into the next power of ten;
* `IsSignificant.unique`, `isSignificant_iff`: there is one such number, and how near it is.
-/
import Mathlib.Tactic.LinearCombination
import Interchange.Proofs.Numeral.Denotation

namespace Interchange

/-! ## 1. Whole numbers -/

/-- `m` is `x` rounded to a whole number: at most a half away, and even where it is exactly a half.
It says what rounding is without computing a quotient. -/
def IsHalfEven (x : ℚ) (m : Nat) : Prop :=
  |(m : ℚ) - x| ≤ 1 / 2 ∧ (|(m : ℚ) - x| = 1 / 2 → m % 2 = 0)

/-- **A quotient is rounded half to even**: the computed number is the one that the rule describes,
and `unique` says that there is no other. -/
theorem isHalfEven_roundHalfEven (num : Nat) {den : Nat} (h : 0 < den) :
    IsHalfEven ((num : ℚ) / den) (roundHalfEven num den) := by
  have hden : (0 : ℚ) < den := Nat.cast_pos.mpr h
  have hup : 2 * ((roundHalfEven num den : ℚ) * den) ≤ 2 * num + den := by
    exact_mod_cast two_mul_roundHalfEven_le num h
  have hdown : 2 * (num : ℚ) ≤ 2 * ((roundHalfEven num den : ℚ) * den) + den := by
    exact_mod_cast le_two_mul_roundHalfEven num h
  have hdist : |(roundHalfEven num den : ℚ) - num / den| =
      |(roundHalfEven num den : ℚ) * den - num| / den := by
    rw [← abs_of_pos hden, ← abs_div, abs_of_pos hden, sub_div, mul_div_cancel_right₀ _ hden.ne']
  rw [IsHalfEven, hdist]
  constructor
  · rw [div_le_iff₀ hden, abs_le]
    constructor <;> linarith
  · intro htie
    rw [div_eq_iff hden.ne'] at htie
    refine roundHalfEven_tie ?_
    -- both multiples beside the quotient are half a step away
    have hdiv := Nat.div_add_mod num den
    have hmod := Nat.mod_lt num h
    have htie' : 2 * ((roundHalfEven num den : Int) * den - num).natAbs = den := by
      have : 2 * |(roundHalfEven num den : ℚ) * den - num| = den := by linarith
      zify
      exact_mod_cast this
    rw [Nat.mul_comm] at hdiv
    simp only [roundHalfEven] at htie'
    generalize num % den = remainder at *
    generalize num / den = quotient at *
    zify at hdiv
    split at htie'
    · omega
    · have hstep : ((quotient + 1 : Nat) : Int) * den = quotient * den + den := by push_cast; ring
      omega

namespace IsHalfEven

variable {x : ℚ} {m n : Nat}

theorem le_of_le (h : IsHalfEven x m) (hn : (n : ℚ) ≤ x) : n ≤ m := by
  have hlow := (abs_le.mp h.1).1
  have hlt : (n : ℚ) < m + 1 := by linarith
  exact_mod_cast Nat.lt_succ_iff.mp (by exact_mod_cast hlt)

theorem ge_of_ge (h : IsHalfEven x m) (hn : x ≤ n) : m ≤ n := by
  have hhigh := (abs_le.mp h.1).2
  have hlt : (m : ℚ) < n + 1 := by linarith
  exact_mod_cast Nat.lt_succ_iff.mp (by exact_mod_cast hlt)

theorem of_abs_lt (h : |(m : ℚ) - x| < 1 / 2) : IsHalfEven x m :=
  ⟨h.le, fun htie => absurd htie h.ne⟩

/-- **There is one rounded number.** -/
theorem unique (hm : IsHalfEven x m) (hn : IsHalfEven x n) : m = n := by
  -- two of them would be neighbours at equal distance, and both even
  have hapart : ∀ {a b : Nat}, IsHalfEven x a → IsHalfEven x b → ¬a < b := by
    intro a b ha hb hlt
    have hstep : (a : ℚ) + 1 ≤ b := by exact_mod_cast hlt
    have h1 := (abs_le.mp ha.1).1
    have h2 := (abs_le.mp hb.1).2
    have hnext : (b : ℚ) = a + 1 := by linarith
    have heven : a % 2 = 0 := ha.2 (by rw [abs_of_nonpos (by linarith)]; linarith)
    have heven' : b % 2 = 0 := hb.2 (by rw [abs_of_nonneg (by linarith)]; linarith)
    have hsucc : b = a + 1 := by exact_mod_cast hnext
    omega
  rcases Nat.lt_trichotomy m n with hlt | heq | hgt
  · exact absurd hlt (hapart hm hn)
  · exact heq
  · exact absurd hgt (hapart hn hm)

end IsHalfEven

namespace Decimal

/-! ## 2. The leading exponent -/

theorem ten_ne_zero : (10 : ℚ) ≠ 0 := by norm_num

theorem ten_zpow_pos (e : Int) : (0 : ℚ) < 10 ^ e := zpow_pos (by norm_num) e

theorem ten_zpow_lt_iff {e f : Int} : (10 : ℚ) ^ e < 10 ^ f ↔ e < f :=
  zpow_lt_zpow_iff_right₀ (by norm_num)

theorem ten_zpow_le_iff {e f : Int} : (10 : ℚ) ^ e ≤ 10 ^ f ↔ e ≤ f :=
  zpow_le_zpow_iff_right₀ (by norm_num)

/-- The greatest power of ten not above `x` has this exponent. -/
def IsLeading (x : ℚ) (e : Int) : Prop := (10 : ℚ) ^ e ≤ x ∧ x < 10 ^ (e + 1)

/-- **There is one leading exponent.** -/
theorem IsLeading.unique {x : ℚ} {e f : Int} (he : IsLeading x e) (hf : IsLeading x f) : e = f := by
  have h1 := ten_zpow_lt_iff.mp (he.1.trans_lt hf.2)
  have h2 := ten_zpow_lt_iff.mp (hf.1.trans_lt he.2)
  omega

theorem IsLeading.shift {x : ℚ} {e : Int} (h : IsLeading x e) (k : Int) :
    IsLeading (x * 10 ^ k) (e + k) := by
  have hunit := ten_zpow_pos k
  rw [IsLeading, add_right_comm e k 1, zpow_add₀ ten_ne_zero, zpow_add₀ ten_ne_zero]
  exact ⟨mul_le_mul_of_nonneg_right h.1 hunit.le, mul_lt_mul_of_pos_right h.2 hunit⟩

theorem IsLeading.unit_le {x : ℚ} {e : Int} (h : IsLeading x e) (precision : Nat) :
    (10 : ℚ) ^ (e - ((precision : Int) - 1)) ≤ 1 / 10 ^ ((precision : Int) - 1) * x := by
  rw [zpow_sub₀ ten_ne_zero, div_eq_mul_one_div, mul_comm]
  exact mul_le_mul_of_nonneg_left h.1 (one_div_pos.mpr (ten_zpow_pos _)).le

theorem isLeading_natCast_iff {x : ℚ} {p : Nat} :
    IsLeading x p ↔ (powerOfTen p : ℚ) ≤ x ∧ x < powerOfTen (p + 1) := by
  rw [IsLeading, ← Nat.cast_succ, zpow_natCast, zpow_natCast, cast_powerOfTen, cast_powerOfTen]

theorem isLeading_digits {p r : Nat} (h : powerOfTen p ≤ r ∧ r < powerOfTen (p + 1)) (e : Int) :
    IsLeading ((r : ℚ) * 10 ^ (e - p)) e := by
  have hwhole : IsLeading (r : ℚ) p :=
    isLeading_natCast_iff.mpr ⟨Nat.cast_le.mpr h.1, Nat.cast_lt.mpr h.2⟩
  have hshift := hwhole.shift (e - p)
  rwa [add_sub_cancel] at hshift

theorem length_digits {p r : Nat} (h : powerOfTen p ≤ r ∧ r < powerOfTen (p + 1)) :
    (digits r).length = p + 1 := by
  have hle := (length_digits_le_iff (Nat.succ_pos p)).mpr h.2
  cases p with
  | zero =>
    have hpos := List.length_pos_of_ne_nil (digits_ne_nil r)
    omega
  | succ p =>
    have hge := (length_digits_le_iff (Nat.succ_pos p)).not.mpr (Nat.not_lt.mpr h.1)
    omega

theorem exists_digitCount {n : Nat} (h : 0 < n) :
    ∃ k, digitCount n = k + 1 ∧ powerOfTen k ≤ n ∧ n < powerOfTen (k + 1) := by
  have hpos : 0 < digitCount n := List.length_pos_of_ne_nil (digits_ne_nil n)
  obtain ⟨k, hk⟩ := Nat.exists_eq_add_one.mpr hpos
  refine ⟨k, hk, ?_, (length_digits_le_iff (Nat.succ_pos k)).mp (Nat.le_of_eq hk)⟩
  cases k with
  | zero => exact h
  | succ k =>
    by_contra hlt
    have hshort := (length_digits_le_iff (Nat.succ_pos k)).mpr (Nat.not_le.mp hlt)
    rw [digitCount] at hk
    omega

/-- **The leading exponent of a positive quotient** is found by counting the digits of a whole
number, of the quotient from one on and of its inverse below. -/
theorem leadingExponent_spec {num den : Nat} (hnum : 0 < num) (hden : 0 < den) :
    IsLeading ((num : ℚ) / den) (leadingExponent num den) := by
  have hden' : (0 : ℚ) < den := Nat.cast_pos.mpr hden
  unfold leadingExponent
  split
  · next hle =>
    obtain ⟨k, hk, hlow, hhigh⟩ := exists_digitCount (Nat.div_pos hle hden)
    rw [Nat.le_div_iff_mul_le hden] at hlow
    rw [Nat.div_lt_iff_lt_mul hden] at hhigh
    have hexp : (digitCount (num / den) : Int) - 1 = k := by omega
    rw [hexp, isLeading_natCast_iff, le_div_iff₀ hden', div_lt_iff₀ hden']
    exact ⟨by exact_mod_cast hlow, by exact_mod_cast hhigh⟩
  · next hlt =>
    have hpos : 0 < (den - 1) / num := Nat.div_pos (by omega) hnum
    obtain ⟨k, hk, hlow, hhigh⟩ := exists_digitCount hpos
    rw [Nat.le_div_iff_mul_le hnum] at hlow
    rw [Nat.div_lt_iff_lt_mul hnum] at hhigh
    have hexp : -(digitCount ((den - 1) / num) : Int) = -((k + 1 : Nat) : Int) := by omega
    have hnext : -((k + 1 : Nat) : Int) + 1 = -(k : Int) := by omega
    rw [hexp, IsLeading, hnext, zpow_neg, zpow_neg, zpow_natCast, zpow_natCast, ← cast_powerOfTen,
      ← cast_powerOfTen, le_div_iff₀ hden', div_lt_iff₀ hden',
      inv_mul_le_iff₀ (Nat.cast_pos.mpr (powerOfTen_pos _)),
      lt_inv_mul_iff₀ (Nat.cast_pos.mpr (powerOfTen_pos _))]
    constructor
    · have : den ≤ powerOfTen (k + 1) * num := by omega
      exact_mod_cast this
    · have : powerOfTen k * num < den := by omega
      exact_mod_cast this

/-! ## 3. Significant digits -/

/-- `q` is the positive number `x` rounded to so many significant digits, a tie going to the even
digit.  The leading exponent is that of `x` itself: where rounding carries into the next power of
ten, `m` is that power and not below it. -/
def IsSignificant (precision : Nat) (x q : ℚ) : Prop :=
  ∃ (e : Int) (m : Nat), IsLeading x e ∧ IsHalfEven (x * 10 ^ ((precision : Int) - 1 - e)) m ∧
    q = m * 10 ^ (e - ((precision : Int) - 1))

/-- **There is one number that is rounded to.** -/
theorem IsSignificant.unique {precision : Nat} {x q r : ℚ} (hq : IsSignificant precision x q)
    (hr : IsSignificant precision x r) : q = r := by
  obtain ⟨e, m, he, hm, rfl⟩ := hq
  obtain ⟨f, n, hf, hn, rfl⟩ := hr
  obtain rfl := he.unique hf
  rw [hm.unique hn]

/-- Rounding to a whole number, after the point is moved and before. -/
theorem isHalfEven_shift_iff (precision : Nat) (x : ℚ) (e : Int) (m : Nat) :
    IsHalfEven (x * 10 ^ ((precision : Int) - 1 - e)) m ↔
      |m * 10 ^ (e - ((precision : Int) - 1)) - x| ≤ 10 ^ (e - ((precision : Int) - 1)) / 2 ∧
        (|m * 10 ^ (e - ((precision : Int) - 1)) - x| = 10 ^ (e - ((precision : Int) - 1)) / 2 →
          m % 2 = 0) := by
  have hunit := ten_zpow_pos (e - ((precision : Int) - 1))
  have hsplit : (m : ℚ) * 10 ^ (e - ((precision : Int) - 1)) - x =
      (m - x * 10 ^ ((precision : Int) - 1 - e)) * 10 ^ (e - ((precision : Int) - 1)) := by
    have hone := zpow_neg_mul_zpow_self (e - ((precision : Int) - 1)) ten_ne_zero
    rw [Int.neg_sub] at hone
    linear_combination x * hone
  have hhalf : (10 : ℚ) ^ (e - ((precision : Int) - 1)) / 2 =
      1 / 2 * 10 ^ (e - ((precision : Int) - 1)) := by ring
  rw [IsHalfEven, hsplit, abs_mul, abs_of_pos hunit, hhalf, mul_le_mul_iff_of_pos_right hunit,
    mul_left_inj' hunit.ne']

/-- **The digits of a number whose leading exponent is known** are at most half a unit of the last
of them away, and even where it is exactly a half. -/
theorem isSignificant_iff {precision : Nat} {x q : ℚ} {e : Int} (he : IsLeading x e) :
    IsSignificant precision x q ↔ ∃ m : Nat, q = m * 10 ^ (e - ((precision : Int) - 1)) ∧
      |q - x| ≤ 10 ^ (e - ((precision : Int) - 1)) / 2 ∧
      (|q - x| = 10 ^ (e - ((precision : Int) - 1)) / 2 → m % 2 = 0) := by
  constructor
  · rintro ⟨f, m, hf, hm, rfl⟩
    obtain rfl := hf.unique he
    exact ⟨m, rfl, (isHalfEven_shift_iff precision x f m).mp hm⟩
  · rintro ⟨m, rfl, hm⟩
    exact ⟨e, m, he, (isHalfEven_shift_iff precision x e m).mpr hm, rfl⟩

/-- **A number is at most half a unit of its last significant digit away.** -/
theorem IsSignificant.abs_sub_le {precision : Nat} {x q : ℚ} (h : IsSignificant precision x q)
    {e : Int} (he : IsLeading x e) : |q - x| ≤ 10 ^ (e - ((precision : Int) - 1)) / 2 := by
  obtain ⟨m, -, hnear, -⟩ := (isSignificant_iff he).mp h
  exact hnear

/-- The nearest whole number after the point has moved. -/
theorem isHalfEven_roundAt (num : Nat) {den : Nat} (h : 0 < den) (power : Int) :
    IsHalfEven ((num : ℚ) / den * 10 ^ power) (roundAt num den power) := by
  obtain ⟨hden, hshift⟩ := shift_eq_mul num h power
  rw [← hshift]
  exact isHalfEven_roundHalfEven _ hden

/-- The exponent after rounding is the leading one, or the next after a carry. -/
theorem toSignificant_exponent {precision num den r : Nat} {e : Int}
    (h : toSignificant precision num den = (r, e)) :
    e = leadingExponent num den ∨ e = leadingExponent num den + 1 := by
  unfold toSignificant at h
  dsimp only at h
  split at h
  · exact .inr (Prod.mk.inj h).2.symm
  · exact .inl (Prod.mk.inj h).2.symm

/-- **The digits of a positive quotient.**  They are so many in number, they are the quotient
rounded to that precision, and they are what the places down to the last of them show. -/
theorem toSignificant_spec {precision num den : Nat} (hprecision : 0 < precision) (hnum : 0 < num)
    (hden : 0 < den) {r : Nat} {e : Int} (h : toSignificant precision num den = (r, e)) :
    (powerOfTen (precision - 1) ≤ r ∧ r < powerOfTen precision) ∧
      IsSignificant precision ((num : ℚ) / den) (r * 10 ^ (e - ((precision : Int) - 1))) ∧
      roundAt num den ((precision : Int) - 1 - e) = r := by
  obtain ⟨p, rfl⟩ := Nat.exists_eq_add_one.mpr hprecision
  have hp : ((p + 1 : Nat) : Int) - 1 = p := by omega
  have hlead := leadingExponent_spec hnum hden
  have hrounds := isHalfEven_roundAt num hden
  simp only [toSignificant, Nat.add_sub_cancel, hp] at h
  rw [hp, IsSignificant, hp, Nat.add_sub_cancel]
  generalize leadingExponent num den = lead at *
  generalize (num : ℚ) / den = x at *
  obtain ⟨hlow, hhigh⟩ : (powerOfTen p : ℚ) ≤ x * 10 ^ ((p : Int) - lead) ∧
      x * 10 ^ ((p : Int) - lead) < powerOfTen (p + 1) := by
    rw [← isLeading_natCast_iff]
    have hshift := hlead.shift (p - lead)
    rwa [add_sub_cancel] at hshift
  have hround := hrounds ((p : Int) - lead)
  have hpower : powerOfTen (p + 1) = 10 * powerOfTen p := by
    rw [powerOfTen, Nat.mul_comm]
    rfl
  split at h
  · next hcarry =>
    obtain ⟨rfl, rfl⟩ := Prod.mk.inj h
    rw [hcarry] at hround
    refine ⟨⟨Nat.le_refl _, ?_⟩, ⟨lead, _, hlead, hround, ?_⟩, ?_⟩
    · have := powerOfTen_pos p
      omega
    · rw [hpower, Nat.cast_mul, add_sub_right_comm, zpow_add_one₀ ten_ne_zero]
      push_cast
      ring
    · -- one place less: a tenth of what was rounded, and less than a tenth of a half away
      refine (hrounds ((p : Int) - (lead + 1))).unique (.of_abs_lt ?_)
      have htenth : x * 10 ^ ((p : Int) - lead) = 10 * (x * 10 ^ ((p : Int) - (lead + 1))) := by
        have hexp : (p : Int) - lead = (p : Int) - (lead + 1) + 1 := by omega
        rw [hexp, zpow_add_one₀ ten_ne_zero]
        ring
      have hnear := hround.1
      rw [htenth, hpower, Nat.cast_mul, abs_le] at hnear
      rw [abs_lt]
      push_cast at hnear
      constructor <;> linarith
  · next hkept =>
    obtain ⟨rfl, rfl⟩ := Prod.mk.inj h
    refine ⟨⟨hround.le_of_le hlow, ?_⟩, ⟨lead, _, hlead, hround, rfl⟩, rfl⟩
    exact Nat.lt_of_le_of_ne (hround.ge_of_ge hhigh.le) hkept

end Decimal
end Interchange
