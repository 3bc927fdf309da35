/-
# Rounding to the nearest number

`IsNearest` says what it means that a datum is an exact rational rounded to nearest, with ties to
even: no finite number is nearer, the code is even where another one is as near, and from half-way
between the largest finite number and 2 ^ 1024 on the result is an infinity.  The sign is given from
outside, because a zero keeps it.

* `ofMagnitude_isNearest`, `ofRatio_isNearest`: rounding gives such a datum;
* `IsNearest.unique`: there is only one.
-/
import Mathlib.Algebra.Order.Field.Basic
import Mathlib.Algebra.Order.Ring.Abs
import Mathlib.Data.Rat.Cast.Order
import Mathlib.Tactic.FieldSimp
import Mathlib.Tactic.Positivity
import Interchange.Proofs.Double.Ladder

namespace Interchange
namespace Double

/-! ## 1. Values -/

theorem unitsPerOne_eq : unitsPerOne = 2 ^ 1074 := by
  have h : ∀ k : Nat, 1 <<< k = 2 ^ k := Nat.one_shiftLeft
  exact h 1074

theorem unitsPerOne_pos : 0 < unitsPerOne := by
  rw [unitsPerOne_eq]
  exact pow_pos (by decide) 1074

theorem cast_unitsPerOne : (unitsPerOne : ℚ) = 2 ^ 1074 := by
  rw [unitsPerOne_eq, Nat.cast_pow, Nat.cast_two]

theorem cast_unitsPerOne_pos : (0 : ℚ) < unitsPerOne := Nat.cast_pos.mpr unitsPerOne_pos

/-- The number that a finite datum stands for, as a rational. -/
def Finite.value (x : Finite) : ℚ := x.units / unitsPerOne

def signed (negative : Bool) (q : ℚ) : ℚ := if negative then -q else q

@[simp] theorem abs_signed (negative : Bool) (q : ℚ) : |signed negative q| = |q| := by
  cases negative <;> simp [signed]

theorem signed_sub (negative : Bool) (p q : ℚ) :
    signed negative p - signed negative q = signed negative (p - q) := by
  cases negative
  · rfl
  · simp only [signed, if_true]
    ring

theorem Finite.value_eq (x : Finite) :
    x.value = signed x.negative ((x.magnitude : ℚ) / unitsPerOne) := by
  unfold value units signed
  cases x.negative <;> simp [neg_div]

theorem Finite.abs_value (x : Finite) : |x.value| = (x.magnitude : ℚ) / unitsPerOne := by
  rw [value_eq, abs_signed]
  exact abs_of_nonneg (div_nonneg (Nat.cast_nonneg _) (le_of_lt cast_unitsPerOne_pos))

/-! ## 2. What it means to be nearest -/

/-- Half-way between the largest finite number and 2 ^ 1024.  What lies there or beyond is rounded
to an infinity. -/
def overflowLimit : ℚ := 2 ^ 1024 - 2 ^ 970

/-- `IsNearest negative q v`: the datum `v` is `q` rounded to nearest, with ties to even, and has
the given sign. -/
def IsNearest (negative : Bool) (q : ℚ) : Double → Prop
  | .nan _ => False
  | .infinity s => s = negative ∧ overflowLimit ≤ |q|
  | .finite x =>
    x.negative = negative ∧ |q| < overflowLimit ∧
      ∀ y : Finite, |x.value - q| ≤ |y.value - q| ∧
        (|x.value - q| = |y.value - q| → y.value ≠ x.value → x.code % 2 = 0)

/-! ## 3. Rounding gives the nearest datum -/

theorem abs_magnitude_sub (magnitude num : Nat) {den : Nat} (h : 0 < den) :
    |(magnitude : ℚ) / unitsPerOne - num / (den * unitsPerOne)| =
      (((num : Int) - magnitude * den).natAbs : ℚ) / (den * unitsPerOne) := by
  have hden : (0 : ℚ) < den := Nat.cast_pos.mpr h
  have hunit := cast_unitsPerOne_pos
  have hdiff : (magnitude : ℚ) / unitsPerOne - num / (den * unitsPerOne) =
      -(((num : Int) - magnitude * den : Int) : ℚ) / (den * unitsPerOne) := by
    push_cast
    field_simp
    ring
  rw [hdiff, abs_div, abs_neg, abs_of_pos (mul_pos hden hunit), Nat.cast_natAbs, Int.cast_abs]

theorem overflowLimit_mul (den : Nat) :
    overflowLimit * (den * unitsPerOne) = (2 ^ 54 - 1) * 2 ^ 2044 * den := by
  have h1 : (2 : ℚ) ^ 1024 = 2 ^ 54 * 2 ^ 970 := by rw [← pow_add]
  have h2 : (2 : ℚ) ^ 2044 = 2 ^ 970 * 2 ^ 1074 := by rw [← pow_add]
  rw [overflowLimit, cast_unitsPerOne, h1, h2]
  generalize (2 : ℚ) ^ 970 = low
  generalize (2 : ℚ) ^ 1074 = unit
  ring

theorem overflowLimit_le_iff {den : Nat} (h : 0 < den) (num : Nat) :
    overflowLimit ≤ (num : ℚ) / (den * unitsPerOne) ↔ 0x7FF0000000000000 ≤ codeOf num den := by
  have hden : (0 : ℚ) < den := Nat.cast_pos.mpr h
  rw [le_div_iff₀ (mul_pos hden cast_unitsPerOne_pos), overflowLimit_mul, codeOf_overflow_iff h]
  have hcast : (((2 ^ 54 - 1) * 2 ^ 2044 * den : Nat) : ℚ) = (2 ^ 54 - 1) * 2 ^ 2044 * den := by
    rw [Nat.cast_mul, Nat.cast_mul, Nat.cast_pow]
    norm_num only
  rw [← hcast, Nat.cast_le]

/-- The opposite of a number other than zero is as near only to zero. -/
theorem eq_zero_of_abs_sub_eq {p q : ℚ} (hp : p ≠ 0) (h : |p - q| = |-p - q|) : q = 0 := by
  rcases abs_eq_abs.mp h with h | h
  · exact absurd (by linarith) hp
  · linarith

theorem Finite.value_eq_neg {x y : Finite} (hcode : x.code = y.code) (hne : y.value ≠ x.value) :
    y.value = -x.value := by
  have habs : |y.value| = |x.value| := by
    rw [abs_value, abs_value, magnitude_eq, magnitude_eq, hcode]
  exact (abs_eq_abs.mp habs).resolve_left hne

/-- **Rounding a quotient of units gives the nearest datum of the sign.** -/
theorem ofMagnitude_isNearest (negative : Bool) (num : Nat) {den : Nat} (h : 0 < den) :
    IsNearest negative (signed negative ((num : ℚ) / (den * unitsPerOne)))
      (ofMagnitude negative num den) := by
  have hscale : (0 : ℚ) < den * unitsPerOne := mul_pos (Nat.cast_pos.mpr h) cast_unitsPerOne_pos
  have hr : (0 : ℚ) ≤ num / (den * unitsPerOne) := div_nonneg (Nat.cast_nonneg _) (le_of_lt hscale)
  have hlimit := overflowLimit_le_iff h num
  have hdist := fun m => abs_magnitude_sub m num h
  generalize hrdef : (num : ℚ) / (den * unitsPerOne) = r at *
  unfold ofMagnitude
  split
  · next hcode =>
    refine ⟨rfl, ?_, fun y => ?_⟩
    · rw [abs_signed, abs_of_nonneg hr]
      exact not_le.mp fun hge => absurd (hlimit.mp hge) (by omega)
    · generalize hxdef : (⟨negative, codeOf num den, hcode⟩ : Finite) = x
      have hxcode : x.code = codeOf num den := by rw [← hxdef]
      have hxneg : x.negative = negative := by rw [← hxdef]
      -- both distances in units; the sign of `y` can only take it farther away
      have hx : |x.value - signed negative r| =
          (((num : Int) - magnitudeAt x.code * den).natAbs : ℚ) / (den * unitsPerOne) := by
        rw [Finite.value_eq, hxneg, signed_sub, abs_signed, Finite.magnitude_eq, hdist]
      have hy : (((num : Int) - magnitudeAt y.code * den).natAbs : ℚ) / (den * unitsPerOne) ≤
          |y.value - signed negative r| := by
        have := abs_abs_sub_abs_le y.value (signed negative r)
        rwa [abs_signed, Finite.abs_value, abs_of_nonneg hr, Finite.magnitude_eq, hdist] at this
      obtain ⟨hnear, htie⟩ := codeOf_nearest h num y.code
      rw [← hxcode] at hnear htie
      refine ⟨?_, fun heq hne => ?_⟩
      · rw [hx]
        exact (div_le_div_of_nonneg_right (Nat.cast_le.mpr hnear) (le_of_lt hscale)).trans hy
      · by_cases hcodes : y.code = x.code
        · -- the same rung with the other sign is as near only to zero
          rw [Finite.value_eq_neg hcodes.symm hne] at heq
          have hx0 : x.value ≠ 0 := by
            intro h0
            rw [Finite.value_eq_neg hcodes.symm hne, h0, neg_zero] at hne
            exact hne rfl
          have hnum : num = 0 := by
            have hq0 := eq_zero_of_abs_sub_eq hx0 heq
            rw [← abs_eq_zero, abs_signed, abs_eq_zero, ← hrdef, div_eq_zero_iff] at hq0
            exact Nat.cast_eq_zero.mp (hq0.resolve_right (ne_of_gt hscale))
          rw [hxcode, hnum, codeOf_zero h]
        · refine htie (Nat.le_antisymm hnear ?_) hcodes
          rw [← heq, hx, div_le_div_iff_of_pos_right hscale, Nat.cast_le] at hy
          exact hy
  · next hcode =>
    refine ⟨rfl, ?_⟩
    rw [abs_signed, abs_of_nonneg hr]
    exact hlimit.mpr (not_lt.mp hcode)

/-- **Rounding a quotient gives the nearest datum of the sign.** -/
theorem ofRatio_isNearest (negative : Bool) (num : Nat) {den : Nat} (h : 0 < den) :
    IsNearest negative (signed negative ((num : ℚ) / den)) (ofRatio negative num den) := by
  have hunit := ne_of_gt cast_unitsPerOne_pos
  have hnear := ofMagnitude_isNearest negative (num * unitsPerOne) h
  rwa [Nat.cast_mul, mul_div_mul_right _ _ hunit] at hnear

/-! ## 4. There is only one nearest datum -/

/-- What lies between two equally near numbers is nearer. -/
theorem abs_sub_lt_of_between {a b c q : ℚ} (h : |a - q| = |b - q|)
    (hc : (a < c ∧ c < b) ∨ (b < c ∧ c < a)) : |c - q| < |a - q| := by
  have hsum : a - q = -(b - q) := by
    refine (abs_eq_abs.mp h).resolve_left fun heq => ?_
    rcases hc with hc | hc <;> linarith
  have h1 := le_abs_self (a - q)
  have h2 := neg_le_abs (a - q)
  rw [abs_lt]
  rcases hc with hc | hc <;> constructor <;> linarith

/-- Of two different even codes, one is followed by a code that lies between them. -/
theorem exists_nearer {x y : Finite} {q : ℚ} (hsign : x.negative = y.negative)
    (hlt : x.code < y.code) (hx : x.code % 2 = 0) (hy : y.code % 2 = 0)
    (h : |x.value - q| = |y.value - q|) : ∃ z : Finite, |z.value - q| < |x.value - q| := by
  have hz : x.code + 1 < y.code := by omega
  refine ⟨⟨x.negative, x.code + 1, hz.trans y.code_lt⟩, abs_sub_lt_of_between h ?_⟩
  have hunit := cast_unitsPerOne_pos
  have hxz : (magnitudeAt x.code : ℚ) / unitsPerOne < magnitudeAt (x.code + 1) / unitsPerOne :=
    div_lt_div_of_pos_right (Nat.cast_lt.mpr (magnitudeAt_strictMono (Nat.lt_succ_self _))) hunit
  have hzy : (magnitudeAt (x.code + 1) : ℚ) / unitsPerOne < magnitudeAt y.code / unitsPerOne :=
    div_lt_div_of_pos_right (Nat.cast_lt.mpr (magnitudeAt_strictMono hz)) hunit
  simp only [Finite.value_eq, Finite.magnitude_eq, ← hsign]
  cases x.negative
  · exact .inl ⟨hxz, hzy⟩
  · exact .inr ⟨neg_lt_neg hzy, neg_lt_neg hxz⟩

/-- Numbers of one sign with one value are one number. -/
theorem Finite.eq_of_value {x y : Finite} (hsign : x.negative = y.negative)
    (h : x.value = y.value) : x = y := by
  obtain ⟨negative, code, hcode⟩ := x
  obtain ⟨negative', code', hcode'⟩ := y
  obtain rfl : negative = negative' := hsign
  have habs := congrArg (|·|) h
  rw [abs_value, abs_value, magnitude_eq, magnitude_eq,
    div_left_inj' (ne_of_gt cast_unitsPerOne_pos), Nat.cast_inj] at habs
  obtain rfl : code = code' := magnitudeAt_strictMono.injective habs
  rfl

/-- **No two data are nearest to the same rational with the same sign.** -/
theorem IsNearest.unique {negative : Bool} {q : ℚ} {v w : Double} (hv : IsNearest negative q v)
    (hw : IsNearest negative q w) : v = w := by
  cases v with
  | nan => exact hv.elim
  | infinity s =>
    cases w with
    | nan => exact hw.elim
    | infinity t => rw [hv.1, hw.1]
    | finite y => exact absurd hv.2 (not_le.mpr hw.2.1)
  | finite x =>
    cases w with
    | nan => exact hw.elim
    | infinity t => exact absurd hw.2 (not_le.mpr hv.2.1)
    | finite y =>
      obtain ⟨hxs, -, hx⟩ := hv
      obtain ⟨hys, -, hy⟩ := hw
      have hdist := le_antisymm (hx y).1 (hy x).1
      have hsign : x.negative = y.negative := hxs.trans hys.symm
      by_cases hval : x.value = y.value
      · rw [Finite.eq_of_value hsign hval]
      · have hxe := (hx y).2 hdist (Ne.symm hval)
        have hye := (hy x).2 hdist.symm hval
        rcases Nat.lt_trichotomy x.code y.code with hlt | heq | hgt
        · obtain ⟨z, hz⟩ := exists_nearer hsign hlt hxe hye hdist
          exact absurd (hx z).1 (not_le.mpr hz)
        · refine absurd ?_ hval
          rw [Finite.value_eq, Finite.value_eq, hsign, Finite.magnitude_eq, Finite.magnitude_eq,
            heq]
        · obtain ⟨z, hz⟩ := exists_nearer hsign.symm hgt hye hxe hdist.symm
          exact absurd (hy z).1 (not_le.mpr hz)

/-- 2 ^ 53 + 1 lies half-way between two numbers and goes to the even one. -/
example : (Finite.value ⟨false, 0x4340000000000000, by decide⟩) = 2 ^ 53 ∧
    ofRatio false (2 ^ 53 + 1) 1 = .finite ⟨false, 0x4340000000000000, by decide⟩ := by
  decide +kernel

end Double
end Interchange
