/-
# Cutting a number off at its point

Truncation drops the fraction of a number, towards zero; remainders are what such a division leaves.
On whole numbers neither rounds.

Truncation also tells whether a number is whole: the integer that it gives is then equal to the
number, and otherwise it is not.  Numbers with a fraction are below 2 ^ 53, so widening the integer
again cannot hide the difference.

* `toInt?_rem`, `toInt?_remEuclid`: remainders of whole numbers;
* `equals_ofInt_truncate_iff`: comparing back with the number.
-/
import Interchange.Proofs.Double.Order
import Interchange.Proofs.Double.Zero

namespace Interchange
namespace Double

/-! ## 1. Whole numbers by sign and magnitude -/

section Whole

variable {x : Finite} {m : Int}

theorem Finite.magnitude_of_units (hx : x.units = m * unitsPerOne) :
    x.magnitude = m.natAbs * unitsPerOne := by
  rw [← x.natAbs_units, hx, Int.natAbs_mul, Int.natAbs_natCast]

/-- A whole number is not positive where its sign is set, and not negative where it is not. -/
theorem Finite.sign_of_units (hx : x.units = m * unitsPerOne) :
    if x.negative then m ≤ 0 else 0 ≤ m := by
  have hunit : (0 : Int) < unitsPerOne := Int.natCast_pos.mpr unitsPerOne_pos
  unfold units at hx
  split at hx
  · next hneg =>
    rw [if_pos hneg]
    by_contra hpos
    have := Int.mul_pos (not_le.mp hpos) hunit
    omega
  · next hneg =>
    rw [if_neg hneg]
    by_contra hneg
    have := Int.mul_neg_of_neg_of_pos (not_le.mp hneg) hunit
    omega

theorem toInt?_of_magnitude (hmag : x.magnitude = m.natAbs * unitsPerOne)
    (hsign : if x.negative then m ≤ 0 else 0 ≤ m) : (finite x).toInt? = some m := by
  refine toInt?_eq_some_iff.mpr ⟨x, rfl, ?_⟩
  unfold Finite.units
  rw [hmag, Int.natCast_mul]
  split
  · next hneg =>
    rw [if_pos hneg] at hsign
    rw [Int.ofNat_natAbs_of_nonpos hsign, Int.neg_mul, Int.neg_neg]
  · next hneg =>
    rw [if_neg hneg] at hsign
    rw [Int.natAbs_of_nonneg hsign]

end Whole

/-! ## 2. Remainders -/

section Remainder

variable {v w : Double} {m n : Int}

theorem toInt?_abs (hv : v.toInt? = some m) : v.abs.toInt? = some (m.natAbs : Int) := by
  obtain ⟨x, rfl, hx⟩ := toInt?_eq_some_iff.mp hv
  refine toInt?_of_magnitude ?_ (Int.natCast_nonneg _)
  rw [Finite.magnitude_eq, ← Finite.magnitude_eq x, Finite.magnitude_of_units hx]
  rfl

/-- **The remainder of whole numbers is exact**; it has the sign of the dividend. -/
theorem toInt?_rem (hv : v.toInt? = some m) (hw : w.toInt? = some n) (hn : n ≠ 0)
    (hbound : n.natAbs ≤ 2 ^ 53) : (v.rem w).toInt? = some (m.tmod n) := by
  obtain ⟨x, rfl, hx⟩ := toInt?_eq_some_iff.mp hv
  obtain ⟨y, rfl, hy⟩ := toInt?_eq_some_iff.mp hw
  have hcode : y.code ≠ 0 := by
    rw [Ne, ← y.units_eq_zero_iff, hy]
    exact Int.mul_ne_zero hn (Int.natCast_ne_zero.mpr unitsPerOne_pos.ne')
  have hlt := Nat.mod_lt m.natAbs (Int.natAbs_pos.mpr hn)
  obtain ⟨z, hz, hsign, hmag⟩ := exists_ofMagnitude (n := m.tmod n)
    (.of_natAbs_le (by rw [Int.natAbs_tmod]; omega)) x.negative Nat.one_pos
  have hrem : (finite x).rem (finite y) = .finite z := by
    rw [rem, if_neg hcode, Finite.magnitude_of_units hx, Finite.magnitude_of_units hy,
      Nat.mul_mod_mul_right, ← Int.natAbs_tmod, ← hz, Nat.mul_one]
  rw [hrem]
  refine toInt?_of_magnitude hmag ?_
  have hdividend := Finite.sign_of_units hx
  rw [hsign]
  split at hdividend
  · next hneg =>
    have hopposite := Int.tmod_nonneg n (Int.neg_nonneg_of_nonpos hdividend)
    rw [Int.neg_tmod] at hopposite
    rw [if_pos hneg]
    exact Int.nonpos_of_neg_nonneg hopposite
  · next hneg =>
    rw [if_neg hneg]
    exact Int.tmod_nonneg n hdividend

/-- A remainder towards zero that is moved up where it is negative. -/
theorem emod_eq_tmod_of_pos (m : Int) {n : Int} (hn : 0 < n) :
    m % n = if m.tmod n < 0 then m.tmod n + n else m.tmod n := by
  have hsize := Int.natAbs_tmod m n
  have hlt := Nat.mod_lt m.natAbs (Int.natAbs_pos.mpr hn.ne')
  have hmod : m % n = m.tmod n % n := by
    rw [Int.tmod_def, Int.sub_mul_emod_self_left]
  rw [hmod]
  split
  · rw [← Int.add_emod_right, Int.emod_eq_of_lt] <;> omega
  · rw [Int.emod_eq_of_lt] <;> omega

/-- **The remainder that is not negative is exact** too.  Moving it up by the divisor is a sum of
whole numbers below the divisor. -/
theorem toInt?_remEuclid (hv : v.toInt? = some m) (hw : w.toInt? = some n) (hn : 0 < n)
    (hbound : n.natAbs ≤ 2 ^ 53) : (v.remEuclid w).toInt? = some (m % n) := by
  have hrem := toInt?_rem hv hw hn.ne' hbound
  have hzero : (zero false).toInt? = some 0 := toInt?_of_code_eq_zero rfl
  have hlt := Int.emod_lt_of_pos m hn
  have hnonneg := Int.emod_nonneg m hn.ne'
  have hmod := emod_eq_tmod_of_pos m hn
  unfold remEuclid
  dsimp only
  split at hmod
  · next hneg =>
    rw [if_pos ((lt_iff_of_toInt? hrem hzero).mpr hneg), hmod]
    have habs := toInt?_abs hw
    rw [Int.natAbs_of_nonneg hn.le] at habs
    exact toInt?_add hrem habs (.of_natAbs_le (by omega))
  · next hneg =>
    rw [if_neg ((lt_iff_of_toInt? hrem hzero).not.mpr hneg), hmod]
    exact hrem

end Remainder

/-! ## 3. Truncation -/

/-- The integer next to a finite number towards zero, which is how a number is narrowed to an
integer before the two are compared. -/
def truncate? : Double → Option Int
  | .finite x => some (x.units.tdiv unitsPerOne)
  | _ => none

theorem truncate?_of_toInt? {v : Double} {n : Int} (h : v.toInt? = some n) :
    v.truncate? = some n := by
  obtain ⟨x, rfl, hx⟩ := toInt?_eq_some_iff.mp h
  rw [truncate?, hx, Int.mul_tdiv_cancel _ (Int.natCast_ne_zero.mpr unitsPerOne_pos.ne')]

/-- **A number with a fraction is below 2 ^ 53**: from there on all doubles are integers, so only a
small number can be truncated to another one. -/
theorem Finite.magnitude_lt_of_toInt? {x : Finite} (h : (finite x).toInt? = none) :
    x.magnitude < 2 ^ 53 * unitsPerOne := by
  by_cases hscale : x.scale < 1074
  · have hpower : 2 ^ x.scale ≤ unitsPerOne :=
      (pow_le_pow_right₀ one_le_two hscale.le).trans_eq unitsPerOne_eq.symm
    rw [magnitude, Nat.shiftLeft_eq]
    exact (Nat.mul_lt_mul_of_pos_right x.significand_lt (Nat.two_pow_pos _)).trans_le
      (Nat.mul_le_mul_left _ hpower)
  · -- from there on the significand is shifted by whole ones
    have hwhole : unitsPerOne ∣ x.magnitude := by
      rw [magnitude, Nat.shiftLeft_eq, unitsPerOne_eq]
      exact (pow_dvd_pow 2 (not_lt.mp hscale)).mul_left _
    have hmod : x.units % unitsPerOne = 0 := by
      rw [← Int.natAbs_dvd_natAbs.trans Int.dvd_iff_emod_eq_zero, Int.natAbs_natCast, natAbs_units]
      exact hwhole
    rw [toInt?, if_pos hmod] at h
    cases h

/-- **A number is equal to the integer that it is cut off to only if it is that integer**, although
that integer is rounded for the comparison. -/
theorem equals_ofInt_truncate_iff {v : Double} {n : Int} (h : v.truncate? = some n) :
    (ofInt n).equals v = true ↔ v.toInt? = some n := by
  constructor
  · intro heq
    cases v with
    | nan _ | infinity _ => cases h
    | finite x =>
      cases hx : (finite x).toInt? with
      | some m =>
        rw [truncate?_of_toInt? hx] at h
        exact h
      | none =>
        have hlt := Finite.magnitude_lt_of_toInt? hx
        have hsmall : n.natAbs ≤ 2 ^ 53 := by
          rw [← Option.some.inj h, Int.natAbs_tdiv, Finite.natAbs_units, Int.natAbs_natCast]
          exact ((Nat.div_lt_iff_lt_mul unitsPerOne_pos).mpr hlt).le
        rw [← hx, ← toInt?_eq_of_equals heq, toInt?_ofInt (.of_natAbs_le hsmall)]
  · intro hn
    refine equals_of_toInt? ?_ hn
    rw [ofInt_of_toInt? hn, toInt?_dropZeroSign, hn]

end Double
end Interchange
