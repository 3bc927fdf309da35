/-
# Rounding again, to the same digits

What lies nearer to some significant digits than a number that is rounded to them is rounded to them
too, as long as digits stand equally close around them.  Below a power of ten they stand ten times
closer than above it, so a number there can be nearer to the power than one above and still have
other digits.

* `isSignificant_power_iff`: which numbers are rounded to a power of ten;
* `IsSignificant.nearer_iff`: which of the nearer numbers have the same digits;
* `IsSignificant.not_power_of_nearer`: the others are not rounded to a power of ten at all.
-/
import Interchange.Proofs.Decimal.Significant

namespace Interchange
namespace Decimal

variable {p : Nat} {x y q : ℚ} {e k : Int}

/-! ## 1. Within one decade -/

theorem powerOfTen_mul_unit (hp : 0 < p) (e : Int) :
    (powerOfTen (p - 1) : ℚ) * 10 ^ (e - ((p : Int) - 1)) = 10 ^ e ∧
      (powerOfTen p : ℚ) * 10 ^ (e - ((p : Int) - 1)) = 10 ^ (e + 1) := by
  have hmul (n : Nat) (k : Int) : (powerOfTen n : ℚ) * 10 ^ k = 10 ^ (n + k) := by
    rw [cast_powerOfTen, ← zpow_natCast, ← zpow_add₀ ten_ne_zero]
  rw [hmul, hmul]
  constructor <;> congr 1 <;> omega

theorem powerOfTen_even {n : Nat} (h : 0 < n) : powerOfTen n % 2 = 0 := by
  obtain ⟨m, rfl⟩ := Nat.exists_eq_add_one.mpr h
  have hstep : powerOfTen (m + 1) = powerOfTen m * 10 := rfl
  omega

theorem add_le_of_mul_lt {m n : Nat} {unit : ℚ} (hunit : 0 < unit) (h : m * unit < n * unit) :
    m * unit + unit ≤ n * unit := by
  have hlt : m + 1 ≤ n := by exact_mod_cast lt_of_mul_lt_mul_right h hunit.le
  have hcast : ((m + 1 : Nat) : ℚ) ≤ n := Nat.cast_le.mpr hlt
  have hmul := mul_le_mul_of_nonneg_right hcast hunit.le
  push_cast at hmul
  linarith

/-- Rounding stays in the decade, or carries to the next power of ten. -/
theorem IsSignificant.bounds (hp : 0 < p) (h : IsSignificant p x q) (he : IsLeading x e) :
    (10 : ℚ) ^ e ≤ q ∧ q ≤ 10 ^ (e + 1) := by
  obtain ⟨f, m, hf, hm, rfl⟩ := h
  obtain rfl := hf.unique he
  have hunit := ten_zpow_pos (f - ((p : Int) - 1))
  have hshift : IsLeading (x * 10 ^ ((p : Int) - 1 - f)) (p - 1 : Nat) := by
    have hpow := hf.shift ((p : Int) - 1 - f)
    rwa [show f + ((p : Int) - 1 - f) = ((p - 1 : Nat) : Int) by omega] at hpow
  rw [isLeading_natCast_iff, Nat.sub_add_cancel hp] at hshift
  obtain ⟨hbegin, hend⟩ := powerOfTen_mul_unit hp f
  rw [← hbegin, ← hend]
  exact ⟨mul_le_mul_of_nonneg_right (Nat.cast_le.mpr (hm.le_of_le hshift.1)) hunit.le,
    mul_le_mul_of_nonneg_right (Nat.cast_le.mpr (hm.ge_of_ge hshift.2.le)) hunit.le⟩

/-- Digits that are no power of ten are a whole unit inside the decade. -/
theorem IsSignificant.strict_bounds (hp : 0 < p) (h : IsSignificant p x q) (he : IsLeading x e)
    (hq : ¬∃ k : Int, q = 10 ^ k) : (10 : ℚ) ^ e + 10 ^ (e - ((p : Int) - 1)) ≤ q ∧
      q + 10 ^ (e - ((p : Int) - 1)) ≤ 10 ^ (e + 1) := by
  obtain ⟨hlow, hhigh⟩ := h.bounds hp he
  obtain ⟨m, rfl, -⟩ := (isSignificant_iff he).mp h
  have hunit := ten_zpow_pos (e - ((p : Int) - 1))
  obtain ⟨hbegin, hend⟩ := powerOfTen_mul_unit hp e
  constructor
  · have hlt := lt_of_le_of_ne hlow fun heq => hq ⟨e, heq.symm⟩
    rw [← hbegin] at hlt ⊢
    exact add_le_of_mul_lt hunit hlt
  · have hlt := lt_of_le_of_ne hhigh fun heq => hq ⟨e + 1, heq⟩
    rw [← hend] at hlt ⊢
    exact add_le_of_mul_lt hunit hlt

/-! ## 2. Powers of ten -/

/-- The spacing of `p` digits below a power of ten is small against the power. -/
theorem hundred_mul_le (hp : 1 < p) (k : Int) : 100 * (10 : ℚ) ^ (k - p) ≤ 10 ^ k := by
  have hhundred : (100 : ℚ) = 10 ^ (2 : Int) := by norm_num
  rw [hhundred, ← zpow_add₀ ten_ne_zero, ten_zpow_le_iff]
  omega

theorem ten_zpow_succ (k : Int) : (10 : ℚ) ^ (k + 1) = 10 * 10 ^ k := by
  rw [zpow_add_one₀ ten_ne_zero, mul_comm]

theorem unit_above (k : Int) (p : Nat) : (10 : ℚ) ^ (k + 1 - p) = 10 * 10 ^ (k - p) := by
  rw [← ten_zpow_succ, sub_add_eq_add_sub]

/-- A number that is rounded to a power of ten is in the decade that begins there, or in the one
that ends there. -/
theorem IsSignificant.power_near (hp : 1 < p) (h : IsSignificant p y (10 ^ k)) :
    10 ^ k - 10 ^ (k - p) / 2 ≤ y ∧ y ≤ 10 ^ k + 10 ^ (k + 1 - p) / 2 := by
  obtain ⟨f, -, hf, -⟩ := id h
  have hnear := abs_le.mp (h.abs_sub_le hf)
  have hunit := ten_zpow_pos (k - p)
  rw [unit_above]
  rcases lt_or_ge y (10 ^ k) with hbelow | habove
  · have hfk := ten_zpow_lt_iff.mp (hf.1.trans_lt hbelow)
    have hle : (10 : ℚ) ^ (f - ((p : Int) - 1)) ≤ 10 ^ (k - p) := ten_zpow_le_iff.mpr (by omega)
    constructor <;> linarith
  · have hkf := ten_zpow_lt_iff.mp (habove.trans_lt hf.2)
    have hfk := ten_zpow_le_iff.mp (h.bounds (by omega) hf).1
    obtain rfl : f = k := by omega
    rw [show f - ((p : Int) - 1) = f + 1 - p by omega, unit_above] at hnear
    constructor <;> linarith

/-- At most half a unit below a power of ten, numbers are rounded to it, with a carry. -/
theorem isSignificant_power_of_below (hp : 1 < p) (hlow : 10 ^ k - 10 ^ (k - p) / 2 ≤ y)
    (hbelow : y < 10 ^ k) : IsSignificant p y (10 ^ k) := by
  have hsmall := hundred_mul_le hp k
  have hpower := ten_zpow_succ (k - 1)
  rw [sub_add_cancel] at hpower
  have hlead : IsLeading y (k - 1) := ⟨by linarith, by rwa [sub_add_cancel]⟩
  have hend := (powerOfTen_mul_unit (by omega : 0 < p) (k - 1)).2
  rw [sub_add_cancel] at hend
  refine (isSignificant_iff hlead).mpr
    ⟨powerOfTen p, hend.symm, ?_, fun _ => powerOfTen_even (by omega)⟩
  rw [show k - 1 - ((p : Int) - 1) = k - p by omega, abs_of_pos (sub_pos.mpr hbelow)]
  linarith

/-- At most half a unit above a power of ten, numbers are rounded to it. -/
theorem isSignificant_power_of_above (hp : 1 < p) (habove : 10 ^ k ≤ y)
    (hhigh : y ≤ 10 ^ k + 10 ^ (k + 1 - p) / 2) : IsSignificant p y (10 ^ k) := by
  have hsmall := hundred_mul_le hp k
  have hpos := ten_zpow_pos k
  have hlead : IsLeading y k := by
    refine ⟨habove, ?_⟩
    rw [unit_above] at hhigh
    rw [ten_zpow_succ]
    linarith
  have hbegin := (powerOfTen_mul_unit (by omega : 0 < p) k).1
  refine (isSignificant_iff hlead).mpr
    ⟨powerOfTen (p - 1), hbegin.symm, ?_, fun _ => powerOfTen_even (by omega)⟩
  rw [show k - ((p : Int) - 1) = k + 1 - p by omega, abs_of_nonpos (sub_nonpos.mpr habove)]
  linarith

/-- **What is rounded to a power of ten** lies at most half a unit of the last digit away: of the
unit above the power, or of the one below it, which is a tenth of that. -/
theorem isSignificant_power_iff (hp : 1 < p) : IsSignificant p y (10 ^ k) ↔
    10 ^ k - 10 ^ (k - p) / 2 ≤ y ∧ y ≤ 10 ^ k + 10 ^ (k + 1 - p) / 2 := by
  refine ⟨fun h => h.power_near hp, fun ⟨hlow, hhigh⟩ => ?_⟩
  rcases lt_or_ge y (10 ^ k) with hbelow | habove
  · exact isSignificant_power_of_below hp hlow hbelow
  · exact isSignificant_power_of_above hp habove hhigh

/-- What is rounded to a power of ten is within a tenth of it. -/
theorem IsSignificant.power_bounds (hp : 1 < p) (h : IsSignificant p y (10 ^ k)) :
    9 / 10 * 10 ^ k ≤ y ∧ y ≤ 11 / 10 * 10 ^ k := by
  obtain ⟨hlow, hhigh⟩ := h.power_near hp
  have hsmall := hundred_mul_le hp k
  have hunit := ten_zpow_pos (k - p)
  rw [unit_above] at hhigh
  constructor <;> linarith

/-! ## 3. Nearer numbers -/

/-- A nearer number has the same digits if these are no power of ten: it is in the same decade. -/
theorem IsSignificant.of_nearer (hp : 0 < p) (h : IsSignificant p x q) (hy : |q - y| ≤ |q - x|)
    (hq : ¬∃ k : Int, q = 10 ^ k) : IsSignificant p y q := by
  obtain ⟨e, -, he, -⟩ := id h
  obtain ⟨hlow, hhigh⟩ := h.strict_bounds hp he hq
  obtain ⟨m, hm, hnear, htie⟩ := (isSignificant_iff he).mp h
  have hunit := ten_zpow_pos (e - ((p : Int) - 1))
  have hclose := abs_le.mp (hy.trans hnear)
  have hlead : IsLeading y e := by constructor <;> linarith
  refine (isSignificant_iff hlead).mpr ⟨m, hm, hy.trans hnear, fun hhalf => htie ?_⟩
  exact le_antisymm hnear (hhalf.symm.trans_le hy)

/-- A nearer number is rounded to the same power of ten if it is not too far below. -/
theorem IsSignificant.of_nearer_power (hp : 1 < p) (h : IsSignificant p x (10 ^ k))
    (hy : |10 ^ k - y| ≤ |10 ^ k - x|) (hlow : 10 ^ k - 10 ^ (k - p) / 2 ≤ y) :
    IsSignificant p y (10 ^ k) := by
  obtain ⟨hxlow, hxhigh⟩ := h.power_near hp
  refine (isSignificant_power_iff hp).mpr ⟨hlow, ?_⟩
  have hunit := ten_zpow_pos (k - p)
  rw [unit_above] at hxhigh ⊢
  have hfar : |(10 : ℚ) ^ k - x| ≤ 10 * 10 ^ (k - p) / 2 := by
    rw [abs_le]
    constructor <;> linarith
  have := (abs_le.mp (hy.trans hfar)).1
  linarith

/-- **A nearer number has the same digits**, unless these are a power of ten and it lies below the
power by more than half a unit of the digits there. -/
theorem IsSignificant.nearer_iff (hp : 1 < p) (h : IsSignificant p x q) (hy : |q - y| ≤ |q - x|) :
    IsSignificant p y q ↔ ¬∃ k : Int, q = 10 ^ k ∧ y < 10 ^ k - 10 ^ (k - p) / 2 := by
  constructor
  · rintro hsame ⟨k, rfl, hfar⟩
    exact absurd ((isSignificant_power_iff hp).mp hsame).1 (not_le.mpr hfar)
  · intro hno
    by_cases hpower : ∃ k : Int, q = 10 ^ k
    · obtain ⟨k, rfl⟩ := hpower
      exact h.of_nearer_power hp hy (not_lt.mp fun hfar => hno ⟨k, rfl, hfar⟩)
    · exact h.of_nearer (by omega) hy hpower

/-- **A nearer number that has other digits is not rounded to any power of ten**, and the number
itself lies above the power that it is rounded to. -/
theorem IsSignificant.not_power_of_nearer (hp : 1 < p) (h : IsSignificant p x (10 ^ k))
    (hy : |10 ^ k - y| ≤ |10 ^ k - x|) (hfar : y < 10 ^ k - 10 ^ (k - p) / 2) :
    10 ^ k < x ∧ ∀ j : Int, ¬IsSignificant p y (10 ^ j) := by
  obtain ⟨-, hxhigh⟩ := h.power_near hp
  have hunit := ten_zpow_pos (k - p)
  have hbelow : 10 ^ k - y ≤ |10 ^ k - x| := (le_abs_self _).trans hy
  have habove : (10 : ℚ) ^ k < x := by
    by_contra hle
    have hxlow := (h.power_near hp).1
    rw [abs_of_nonneg (by linarith)] at hbelow
    linarith
  refine ⟨habove, fun j hj => ?_⟩
  rw [abs_of_neg (sub_neg.mpr habove)] at hbelow
  -- the nearer number is below the power, by less than a tenth of it
  have hnear : 9 / 10 * 10 ^ k ≤ y := by
    have hsmall := hundred_mul_le hp k
    rw [unit_above] at hxhigh
    linarith
  obtain ⟨hlow, hhigh⟩ := hj.power_bounds hp
  have hpos := ten_zpow_pos k
  rcases lt_trichotomy j k with hlt | rfl | hgt
  · have hstep : (10 : ℚ) ^ (j + 1) ≤ 10 ^ k := ten_zpow_le_iff.mpr hlt
    rw [ten_zpow_succ] at hstep
    linarith
  · exact absurd (hj.power_near hp).1 (not_le.mpr hfar)
  · have hstep : (10 : ℚ) ^ (k + 1) ≤ 10 ^ j := ten_zpow_le_iff.mpr hgt
    rw [ten_zpow_succ] at hstep
    linarith

end Decimal
end Interchange
