/-
# The order of numbers

Comparisons look at the places of data on one line, which are found from their codes.  For finite
numbers that is the order of what they measure, so whole numbers compare like the integers that they
are, and rounding down keeps the order.  So does rounding to nearest: a sum that is found below
2 ^ 53 was not rounded from a greater one.

* `Finite.place_le_iff`: places are ordered like measures;
* `le_iff_of_toInt?`: whole numbers compare like integers;
* `floor?_le_of_le`: rounding down keeps the order;
* `toInt?_add_of_floor?`: which sums are known to be exact.
-/
import Interchange.Proofs.Double.Exact

namespace Interchange
namespace Double

/-! ## 1. Places and measures -/

theorem Finite.magnitude_le_iff (x y : Finite) : x.magnitude ≤ y.magnitude ↔ x.code ≤ y.code := by
  rw [magnitude_eq, magnitude_eq]
  exact magnitudeAt_strictMono.le_iff_le

def Finite.place (x : Finite) : Int := if x.negative then -(x.code : Int) else x.code

/-- **Places are ordered like measures**; both zeros stand at one place. -/
theorem Finite.place_le_iff (x y : Finite) : x.place ≤ y.place ↔ x.units ≤ y.units := by
  have hle := magnitude_le_iff x y
  have hge := magnitude_le_iff y x
  have hx := magnitude_eq_zero_iff x
  have hy := magnitude_eq_zero_iff y
  unfold place units
  cases x.negative <;> cases y.negative <;> simp only [if_true, Bool.false_eq_true, if_false] <;>
    omega

theorem le_finite_iff {x y : Finite} : (finite x).le (finite y) = true ↔ x.units ≤ y.units := by
  rw [← Finite.place_le_iff]
  exact decide_eq_true_iff

theorem lt_finite_iff {x y : Finite} : (finite x).lt (finite y) = true ↔ x.units < y.units := by
  rw [← not_le, ← Finite.place_le_iff, not_le]
  exact decide_eq_true_iff

/-! ## 2. Whole numbers -/

def value? : Double → Option ℚ
  | .finite x => some x.value
  | _ => none

section Whole

variable {v w : Double} {m n : Int}

/-- **A datum is an integer when that is its value.** -/
theorem toInt?_eq_some_iff_value? : v.toInt? = some n ↔ v.value? = some (n : ℚ) := by
  have hunit := cast_unitsPerOne_pos.ne'
  rw [toInt?_eq_some_iff]
  cases v with
  | nan _ | infinity _ => simp [value?]
  | finite x =>
    rw [value?, Option.some_inj, Finite.value, div_eq_iff hunit]
    constructor
    · rintro ⟨y, hy, hunits⟩
      obtain rfl := Double.finite.inj hy
      exact_mod_cast hunits
    · intro hunits
      exact ⟨x, rfl, by exact_mod_cast hunits⟩

/-- **Whole numbers compare like the integers that they are.** -/
theorem le_iff_of_toInt? (hv : v.toInt? = some m) (hw : w.toInt? = some n) :
    v.le w = true ↔ m ≤ n := by
  obtain ⟨x, rfl, hx⟩ := toInt?_eq_some_iff.mp hv
  obtain ⟨y, rfl, hy⟩ := toInt?_eq_some_iff.mp hw
  rw [le_finite_iff, hx, hy]
  exact Int.mul_le_mul_right (Int.natCast_pos.mpr unitsPerOne_pos)

theorem lt_iff_of_toInt? (hv : v.toInt? = some m) (hw : w.toInt? = some n) :
    v.lt w = true ↔ m < n := by
  obtain ⟨x, rfl, hx⟩ := toInt?_eq_some_iff.mp hv
  obtain ⟨y, rfl, hy⟩ := toInt?_eq_some_iff.mp hw
  rw [lt_finite_iff, hx, hy]
  exact Int.mul_lt_mul_right (Int.natCast_pos.mpr unitsPerOne_pos)

/-- **Rounding down keeps the order**, so that an earlier instant has no later fields. -/
theorem floor?_le_of_le (hv : v.floor? = some m) (hw : w.floor? = some n) (h : v.le w = true) :
    m ≤ n := by
  cases v with
  | nan _ | infinity _ => cases hv
  | finite x =>
    cases w with
    | nan _ | infinity _ => cases hw
    | finite y =>
      obtain rfl := Option.some.inj hv
      obtain rfl := Option.some.inj hw
      exact Int.ediv_le_ediv (Int.natCast_pos.mpr unitsPerOne_pos) (le_finite_iff.mp h)

end Whole

/-! ## 3. Rounding keeps the order -/

theorem Fits.exists_value {n : Int} (h : Fits n) : ∃ x : Finite, x.value = n := by
  obtain ⟨x, -, hx⟩ := toInt?_eq_some_iff.mp (toInt?_ofInt h)
  refine ⟨x, ?_⟩
  rw [Finite.value, hx, Int.cast_mul, Int.cast_natCast,
    mul_div_cancel_right₀ _ cast_unitsPerOne_pos.ne']

section Nearest

variable {negative : Bool} {q : ℚ} {x y : Finite}

/-- **Rounding does not pass a number**, on the way down or up: the number itself would be nearer.
-/
theorem IsNearest.le_of_le (h : IsNearest negative q (.finite x)) (hy : y.value ≤ q) :
    y.value ≤ x.value := by
  by_contra hlt
  have hnear := (h.2.2 y).1
  rw [abs_of_nonpos (by linarith), abs_of_nonpos (by linarith)] at hnear
  linarith

theorem IsNearest.ge_of_ge (h : IsNearest negative q (.finite x)) (hy : q ≤ y.value) :
    x.value ≤ y.value := by
  by_contra hlt
  have hnear := (h.2.2 y).1
  rw [abs_of_nonneg (by linarith), abs_of_nonneg (by linarith)] at hnear
  linarith

theorem ofUnits_isNearest (units : Int) :
    IsNearest (units < 0) ((units : ℚ) / unitsPerOne) (ofUnits units) := by
  have hnear := ofMagnitude_isNearest (units < 0) units.natAbs Nat.one_pos
  have hsigned : signed (units < 0) ((units.natAbs : ℚ) / ((1 : Nat) * unitsPerOne)) =
      (units : ℚ) / unitsPerOne := by
    rw [Nat.cast_one, one_mul, signed, Nat.cast_natAbs]
    by_cases hneg : units < 0
    · rw [if_pos (decide_eq_true hneg), abs_of_neg hneg, Int.cast_neg, neg_div, neg_neg]
    · rw [if_neg (by simpa using hneg), abs_of_nonneg (not_lt.mp hneg)]
  rwa [hsigned] at hnear

end Nearest

/-- **A sum of integers is exact if it is found below 2 ^ 53**: a greater one is not rounded to
there. -/
theorem toInt?_add_of_floor? {v w : Double} {m n f : Int} (hv : v.toInt? = some m)
    (hw : w.toInt? = some n) (hfloor : (v + w).floor? = some f) (hf : f.natAbs < 2 ^ 53) :
    (v + w).toInt? = some (m + n) := by
  by_cases hsum : (m + n).natAbs ≤ 2 ^ 53
  · exact toInt?_add hv hw (.of_natAbs_le hsum)
  have hunit : (0 : Int) < unitsPerOne := Int.natCast_pos.mpr unitsPerOne_pos
  have hadd : v + w = ofUnits ((m + n) * unitsPerOne) := by
    obtain ⟨x, rfl, hx⟩ := toInt?_eq_some_iff.mp hv
    obtain ⟨y, rfl, hy⟩ := toInt?_eq_some_iff.mp hw
    have hunits : x.units + y.units = (m + n) * unitsPerOne := by rw [hx, hy, Int.add_mul]
    have hne : (m + n) * (unitsPerOne : Int) ≠ 0 := Int.mul_ne_zero (by omega) hunit.ne'
    change (if x.units + y.units = 0 then _ else _) = _
    rw [hunits, if_neg hne]
  have hnear := ofUnits_isNearest ((m + n) * unitsPerOne)
  rw [← hadd, Int.cast_mul, Int.cast_natCast,
    mul_div_cancel_right₀ _ cast_unitsPerOne_pos.ne'] at hnear
  cases hr : v + w with
  | nan _ | infinity _ =>
    rw [hr] at hfloor
    cases hfloor
  | finite r =>
    rw [hr] at hfloor hnear
    have hfloor' : r.units / unitsPerOne = f := Option.some.inj hfloor
    -- the value is beyond 2 ^ 53 on the side of the sum, and so is its floor
    have hvalue (k : Int) : ((k : ℚ) ≤ r.value ↔ k * unitsPerOne ≤ r.units) ∧
        (r.value ≤ k ↔ r.units ≤ k * unitsPerOne) := by
      rw [Finite.value, le_div_iff₀ cast_unitsPerOne_pos, div_le_iff₀ cast_unitsPerOne_pos]
      norm_cast
    rcases Int.lt_or_le (m + n) 0 with hneg | hpos
    · obtain ⟨y, hy⟩ := Fits.exists_value (n := -2 ^ 53) (.of_natAbs_le (by decide))
      have hle : r.value ≤ ((-2 ^ 53 : Int) : ℚ) := by
        rw [← hy]
        refine hnear.ge_of_ge ?_
        rw [hy]
        exact_mod_cast show m + n ≤ -2 ^ 53 by omega
      have := Int.ediv_le_of_le_mul hunit ((hvalue _).2.mp hle)
      omega
    · obtain ⟨y, hy⟩ := Fits.exists_value (n := 2 ^ 53) (.of_natAbs_le (by decide))
      have hle : ((2 ^ 53 : Int) : ℚ) ≤ r.value := by
        rw [← hy]
        refine hnear.le_of_le ?_
        rw [hy]
        exact_mod_cast show 2 ^ 53 ≤ m + n by omega
      have := (Int.le_ediv_iff_mul_le hunit).mpr ((hvalue _).1.mp hle)
      omega

end Double
end Interchange
