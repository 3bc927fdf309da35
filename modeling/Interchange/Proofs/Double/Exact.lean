/-
# Integers that are kept exactly

An integer of at most 53 significant bits is a number of its own.  Sums, differences and products of
integers are exact whenever the result is such an integer, however large the terms are: each
operation works on exact values and rounds once, and there is nothing to round.

`v.toInt? = some n` says that the datum `v` is exactly the integer `n`; a zero of either sign is 0.

* `toInt?_ofInt`: an integer that fits is kept;
* `toInt?_add`, `toInt?_sub`, `toInt?_mul`: so is a result that fits;
* `toInt?_foldl_add`: so is a longer sum, if all that is added up on the way fits.
-/
import Mathlib.Algebra.Order.Ring.Abs
import Mathlib.Data.List.Forall2
import Mathlib.Tactic.Linarith
import Interchange.Proofs.Double.Nearest

namespace Interchange
namespace Double

/-! ## 1. Integers that fit -/

/-- At most 53 significant bits, with at most 970 zeros behind them: an integer that is a double.
Of milliseconds of the calendar and their neighbours it holds because they are below `2 ^ 53`. -/
def Fits (n : Int) : Prop := ∃ r k : Nat, n.natAbs = r * 2 ^ k ∧ r ≤ 2 ^ 53 ∧ k ≤ 970

theorem Fits.of_natAbs_le {n : Int} (h : n.natAbs ≤ 2 ^ 53) : Fits n :=
  ⟨n.natAbs, 0, (Nat.mul_one _).symm, h, Nat.zero_le _⟩

theorem Fits.of_eq_mul {n m : Int} (k : Nat) (hn : n = m * 2 ^ k) (hm : m.natAbs ≤ 2 ^ 53)
    (hk : k ≤ 970) : Fits n := by
  refine ⟨m.natAbs, k, ?_, hm, hk⟩
  rw [hn, Int.natAbs_mul, Int.natAbs_pow]
  rfl

theorem exists_magnitude : ∀ (s r : Nat), r ≤ 0x20000000000000 → s ≤ 2044 →
    ∃ x : Finite, x.magnitude = r * 2 ^ s
  | 0, r, hr, _ => by
    refine ⟨⟨false, 0 * 0x10000000000000 + r, by omega⟩, ?_⟩
    rw [Finite.magnitude_eq]
    exact magnitudeAt_of_scale hr (.inl rfl)
  | s + 1, r, hr, hs => by
    rcases Nat.lt_or_ge r 0x10000000000000 with hlt | hge
    · obtain ⟨x, hx⟩ := exists_magnitude s (2 * r) (by omega) (by omega)
      refine ⟨x, ?_⟩
      rw [hx, pow_succ]
      ring
    · refine ⟨⟨false, (s + 1) * 0x10000000000000 + r, by omega⟩, ?_⟩
      rw [Finite.magnitude_eq]
      exact magnitudeAt_of_scale hr (.inr hge)

/-- An integer that fits is the magnitude of a number, in units. -/
theorem Fits.exists_magnitude {n : Int} (h : Fits n) :
    ∃ x : Finite, x.magnitude = n.natAbs * unitsPerOne := by
  obtain ⟨r, k, hn, hr, hk⟩ := h
  obtain ⟨x, hx⟩ := Double.exists_magnitude (k + 1074) r hr (by omega)
  refine ⟨x, ?_⟩
  rw [hx, hn, unitsPerOne_eq, pow_add, Nat.mul_assoc]

/-! ## 2. What it means to be an integer -/

theorem toInt?_eq_some_iff {v : Double} {n : Int} :
    v.toInt? = some n ↔ ∃ x, v = .finite x ∧ x.units = n * unitsPerOne := by
  have hunit : (unitsPerOne : Int) ≠ 0 := by exact_mod_cast ne_of_gt unitsPerOne_pos
  constructor
  · intro h
    cases v with
    | nan _ => simp [toInt?] at h
    | infinity _ => simp [toInt?] at h
    | finite x =>
      simp only [toInt?] at h
      split at h
      · next hmod =>
        rw [Option.some.injEq] at h
        refine ⟨x, rfl, ?_⟩
        rw [← h, Int.ediv_mul_cancel (Int.dvd_of_emod_eq_zero hmod)]
      · simp at h
  · rintro ⟨x, rfl, hx⟩
    simp only [toInt?, hx, Int.mul_emod_left, if_true, Int.mul_ediv_cancel _ hunit]

theorem toInt?_of_code_eq_zero {x : Finite} (h : x.code = 0) : (finite x).toInt? = some 0 := by
  rw [toInt?_eq_some_iff]
  exact ⟨x, rfl, by rw [(x.units_eq_zero_iff).mpr h, Int.zero_mul]⟩

theorem floor?_of_toInt? {v : Double} {n : Int} (h : v.toInt? = some n) : v.floor? = some n := by
  obtain ⟨x, rfl, hx⟩ := toInt?_eq_some_iff.mp h
  have hunit : (unitsPerOne : Int) ≠ 0 := by decide
  rw [floor?, hx, Int.mul_ediv_cancel _ hunit]

/-- Rounding an integer down changes nothing, not even the sign of a zero. -/
theorem floor_of_toInt? {v : Double} {n : Int} (h : v.toInt? = some n) : v.floor = v := by
  obtain ⟨x, rfl, hx⟩ := toInt?_eq_some_iff.mp h
  have hunit : (unitsPerOne : Int) ≠ 0 := by decide
  have hmag : (x.units / unitsPerOne).natAbs * unitsPerOne = x.magnitude * 1 := by
    rw [Nat.mul_one, ← x.natAbs_units, hx, Int.mul_ediv_cancel _ hunit, Int.natAbs_mul,
      Int.natAbs_natCast]
  rw [floor, hmag, ofMagnitude_magnitude x.negative x Nat.one_pos]

theorem isFinite_of_toInt? {v : Double} {n : Int} (h : v.toInt? = some n) : v.isFinite = true := by
  obtain ⟨x, rfl, -⟩ := toInt?_eq_some_iff.mp h
  rfl

/-! ## 3. Rounding keeps what fits -/

/-- **A magnitude that fits is kept**, whatever denominator it is written over. -/
theorem exists_ofMagnitude {n : Int} (h : Fits n) (negative : Bool) {den : Nat} (hd : 0 < den) :
    ∃ x : Finite, ofMagnitude negative (n.natAbs * unitsPerOne * den) den = .finite x ∧
      x.negative = negative ∧ x.magnitude = n.natAbs * unitsPerOne := by
  obtain ⟨x, hx⟩ := h.exists_magnitude
  refine ⟨⟨negative, x.code, x.code_lt⟩, ?_, rfl, ?_⟩
  · rw [← hx]
    exact ofMagnitude_magnitude negative x hd
  · rw [← hx, Finite.magnitude_eq, Finite.magnitude_eq]

theorem toInt?_ofUnits {n : Int} (h : Fits n) : (ofUnits (n * unitsPerOne)).toInt? = some n := by
  obtain ⟨x, hx, hsign, hmag⟩ := exists_ofMagnitude h (n * unitsPerOne < 0) Nat.one_pos
  rw [Nat.mul_one] at hx
  rw [ofUnits, Int.natAbs_mul, Int.natAbs_natCast, hx, toInt?_eq_some_iff]
  refine ⟨x, rfl, ?_⟩
  have habs : (n * unitsPerOne).natAbs = x.magnitude := by
    rw [hmag, Int.natAbs_mul, Int.natAbs_natCast]
  unfold Finite.units
  rw [hsign, ← habs]
  generalize n * (unitsPerOne : Int) = u
  simp only [decide_eq_true_eq]
  split <;> omega

/-- **An integer that fits is kept**, and comes back as itself. -/
theorem toInt?_ofInt {n : Int} (h : Fits n) : (ofInt n).toInt? = some n := toInt?_ofUnits h

/-! ## 4. Arithmetic -/

/-- **A sum that fits is exact.**  The terms need not be small: it is the sum that has to fit. -/
theorem toInt?_add {v w : Double} {m n : Int} (hv : v.toInt? = some m) (hw : w.toInt? = some n)
    (h : Fits (m + n)) : (v + w).toInt? = some (m + n) := by
  obtain ⟨x, rfl, hx⟩ := toInt?_eq_some_iff.mp hv
  obtain ⟨y, rfl, hy⟩ := toInt?_eq_some_iff.mp hw
  have hsum : x.units + y.units = (m + n) * unitsPerOne := by
    rw [hx, hy]
    ring
  change (add (.finite x) (.finite y)).toInt? = _
  simp only [add]
  rw [hsum]
  split
  · next h0 =>
    have hunit : (unitsPerOne : Int) ≠ 0 := by exact_mod_cast ne_of_gt unitsPerOne_pos
    rw [(mul_eq_zero.mp h0).resolve_right hunit]
    cases x.negative && y.negative <;> rfl
  · exact toInt?_ofUnits h

theorem toInt?_neg {v : Double} {n : Int} (hv : v.toInt? = some n) : (-v).toInt? = some (-n) := by
  obtain ⟨x, rfl, hx⟩ := toInt?_eq_some_iff.mp hv
  rw [toInt?_eq_some_iff]
  refine ⟨⟨!x.negative, x.code, x.code_lt⟩, rfl, ?_⟩
  rw [neg_mul, ← hx]
  unfold Finite.units
  rw [Finite.magnitude_eq, Finite.magnitude_eq]
  cases x.negative <;> simp

/-- **A difference that fits is exact.** -/
theorem toInt?_sub {v w : Double} {m n : Int} (hv : v.toInt? = some m) (hw : w.toInt? = some n)
    (h : Fits (m - n)) : (v - w).toInt? = some (m - n) := by
  rw [sub_eq_add_neg, Int.sub_eq_add_neg]
  exact toInt?_add hv (toInt?_neg hw) (Int.sub_eq_add_neg ▸ h)

/-- **A product that fits is exact.** -/
theorem toInt?_mul {v w : Double} {m n : Int} (hv : v.toInt? = some m) (hw : w.toInt? = some n)
    (h : Fits (m * n)) : (v * w).toInt? = some (m * n) := by
  obtain ⟨x, rfl, hx⟩ := toInt?_eq_some_iff.mp hv
  obtain ⟨y, rfl, hy⟩ := toInt?_eq_some_iff.mp hw
  have hprod : x.magnitude * y.magnitude = (m * n).natAbs * unitsPerOne * unitsPerOne := by
    rw [← x.natAbs_units, ← y.natAbs_units, hx, hy]
    simp only [Int.natAbs_mul, Int.natAbs_natCast]
    ring
  obtain ⟨z, hz, hsign, hmag⟩ :=
    exists_ofMagnitude h (x.negative != y.negative) unitsPerOne_pos
  rw [← hprod] at hz
  refine toInt?_eq_some_iff.mpr ⟨z, hz, ?_⟩
  -- in units, the product of the measures is the measure of the product times one
  have hunits : z.units * unitsPerOne = x.units * y.units := by
    have hmags : (z.magnitude : Int) * unitsPerOne = x.magnitude * y.magnitude := by
      rw [hmag]
      exact_mod_cast hprod.symm
    unfold Finite.units
    rw [hsign]
    cases x.negative <;> cases y.negative <;> simp <;> linarith
  have hunit : (unitsPerOne : Int) ≠ 0 := by exact_mod_cast ne_of_gt unitsPerOne_pos
  refine mul_right_cancel₀ hunit ?_
  rw [hunits, hx, hy]
  ring

/-- **A sum from the left is exact** if each of its partial sums fits.  Each is rounded by itself,
so it does not help that the whole fits. -/
theorem toInt?_foldl_add {terms : List Double} {counts : List Int}
    (h : List.Forall₂ (fun v n => v.toInt? = some n) terms counts) {v : Double} {n : Int}
    (hv : v.toInt? = some n) (hfits : ∀ k, Fits ((counts.take k).foldl (· + ·) n)) :
    (terms.foldl (· + ·) v).toInt? = some (counts.foldl (· + ·) n) := by
  induction h generalizing v n with
  | nil => exact hv
  | cons hfirst _ ih => exact ih (toInt?_add hv hfirst (hfits 1)) fun k => hfits (k + 1)

/-! ## 5. Sums that may be rounded -/

/-- Rounding a count of units always gives a number or an infinity. -/
theorem isNaN_ofUnits (units : Int) : (ofUnits units).isNaN = false := by
  unfold ofUnits ofMagnitude
  split <;> rfl

theorem isNaN_ofInt (n : Int) : (ofInt n).isNaN = false := isNaN_ofUnits _

/-- Only opposite infinities have no sum. -/
theorem isNaN_add {v w : Double} (hv : v.isNaN = false) (hw : w.isFinite = true) :
    (v + w).isNaN = false := by
  cases w with
  | nan _ | infinity _ => cases hw
  | finite y =>
    cases v with
    | nan _ => cases hv
    | infinity _ => rfl
    | finite x =>
      change (if x.units + y.units = 0 then zero (x.negative && y.negative)
        else ofUnits (x.units + y.units)).isNaN = false
      split
      · rfl
      · exact isNaN_ofUnits _

/-- Integers that are numbers always have a sum, rounded or not. -/
theorem isNaN_foldl_add {terms : List Double} {counts : List Int}
    (h : List.Forall₂ (fun v n => v.toInt? = some n) terms counts) {v : Double}
    (hv : v.isNaN = false) : (terms.foldl (· + ·) v).isNaN = false := by
  induction h generalizing v with
  | nil => exact hv
  | cons hfirst _ ih => exact ih (isNaN_add hv (isFinite_of_toInt? hfirst))

/-- Terms beyond 2 ^ 53 that cancel, and a product of 58 bits that ends in zeros. -/
example : (ofInt (2 ^ 60) + ofInt (2 ^ 10 - 2 ^ 60)).toInt? = some (2 ^ 10) ∧
    (ofInt (2 ^ 31) * ofInt 86400000).toInt? = some (2 ^ 31 * 86400000) := by decide +kernel

end Double
end Interchange
