/-
# Rounding an exact value to a `Double`

`Double.ofMagnitude` takes a sign and an exact quotient of naturals, read in units of 2 ^ -1074,
and gives the nearest finite number, with a tie going to the even code and a value beyond the
largest magnitude going to infinity.  Everything that makes a `Double` rounds through it.

* `ofMagnitude_magnitude`: a magnitude that is representable is kept exactly;
* `ofUnits_units`: a number other than zero is the rounding of its own measure.
-/
import Interchange.Double.Basic
import Interchange.Rounding

namespace Interchange

namespace Double

/-! ## 1. Rounding a magnitude -/

/-- The number of doublings by which `num / den` units exceed what 53 bits can count.  None, for all
that is below the normal numbers: subnormal numbers are spaced evenly. -/
def scaleOf (num den : Nat) : Nat := (num / den).log2 - 52

/-- The code of `num / den` units, rounded; it may be beyond the last code.  A significand that is
rounded up to 54 bits adds one to the exponent by itself, because codes are consecutive. -/
def codeOf (num den : Nat) : Nat :=
  scaleOf num den * 0x10000000000000 + roundHalfEven num (den <<< scaleOf num den)

/-- The number of the given sign nearest to `num / den` units of 2 ^ -1074. -/
def ofMagnitude (negative : Bool) (num den : Nat) : Double :=
  if h : codeOf num den < 0x7FF0000000000000 then .finite ⟨negative, codeOf num den, h⟩
  else .infinity negative

/-- The number nearest to an exact count of units; zero is positive. -/
def ofUnits (units : Int) : Double := ofMagnitude (units < 0) units.natAbs 1

/-- The number nearest to an integer; zero is positive.  Integers of 32 bits are exact, those of 64
bits need not be. -/
def ofInt (n : Int) : Double := ofUnits (n * unitsPerOne)

/-- The number of the given sign nearest to `num / den`. -/
def ofRatio (negative : Bool) (num den : Nat) : Double :=
  ofMagnitude negative (num * unitsPerOne) den

theorem codeOf_magnitude (x : Finite) {den : Nat} (h : 0 < den) :
    codeOf (x.magnitude * den) den = x.code := by
  have hf : x.code % 0x10000000000000 < 0x10000000000000 := Nat.mod_lt _ (by decide)
  unfold codeOf
  by_cases he : x.code / 0x10000000000000 = 0
  · have hm : x.magnitude = x.code := by
      simp only [Finite.magnitude, Finite.significand, Finite.scale, Finite.exponent,
        Finite.fraction, he]
      simp
      omega
    have hs : scaleOf (x.magnitude * den) den = 0 := by
      unfold scaleOf
      rw [Nat.mul_div_cancel _ h, hm]
      have hlt : x.code < 2 ^ 52 := by omega
      by_cases h0 : x.code = 0
      · simp [h0]
      · have := (Nat.log2_lt h0).2 hlt
        omega
    rw [hs, hm]
    simp only [Nat.zero_mul, Nat.zero_add, Nat.shiftLeft_zero]
    exact roundHalfEven_mul _ h
  · have hsig : x.significand = 0x10000000000000 + x.code % 0x10000000000000 := by
      simp only [Finite.significand, Finite.exponent, Finite.fraction, he, if_false]
    have hpow : 0 < 2 ^ x.scale := Nat.two_pow_pos _
    have hlog : (x.significand * 2 ^ x.scale).log2 = 52 + x.scale := by
      have hne : x.significand * 2 ^ x.scale ≠ 0 := by
        have : 0 < x.significand * 2 ^ x.scale := Nat.mul_pos (by omega) hpow
        omega
      apply (Nat.log2_eq_iff hne).2
      constructor
      · rw [Nat.pow_add]
        exact Nat.mul_le_mul_right _ (by omega)
      · rw [show 52 + x.scale + 1 = 53 + x.scale by omega, Nat.pow_add]
        exact Nat.mul_lt_mul_of_pos_right (by omega) hpow
    have hs : scaleOf (x.magnitude * den) den = x.scale := by
      unfold scaleOf Finite.magnitude
      rw [Nat.mul_div_cancel _ h, Nat.shiftLeft_eq, hlog]
      omega
    rw [hs]
    have hmul : x.magnitude * den = x.significand * (den * 2 ^ x.scale) := by
      unfold Finite.magnitude
      rw [Nat.shiftLeft_eq, Nat.mul_assoc, Nat.mul_comm (2 ^ x.scale)]
    rw [hmul, Nat.shiftLeft_eq, roundHalfEven_mul _ (Nat.mul_pos h hpow), hsig]
    unfold Finite.scale Finite.exponent
    omega

/-- **A representable magnitude is kept exactly**, whatever denominator it is written over. -/
theorem ofMagnitude_magnitude (negative : Bool) (x : Finite) {den : Nat} (h : 0 < den) :
    ofMagnitude negative (x.magnitude * den) den = .finite ⟨negative, x.code, x.code_lt⟩ := by
  have hc := codeOf_magnitude x h
  have hl := x.code_lt
  unfold ofMagnitude
  simp only [hc, hl, dite_true]

/-- A finite number is the rounding of its own measure, but for the sign of zero. -/
theorem ofUnits_units {x : Finite} (h : x.code ≠ 0) : ofUnits x.units = .finite x := by
  have hu := ofMagnitude_magnitude (decide (x.units < 0)) x Nat.one_pos
  rw [Nat.mul_one] at hu
  have hm : 0 < x.magnitude := by
    have : x.magnitude ≠ 0 := fun e => h ((Finite.magnitude_eq_zero_iff x).1 e)
    omega
  have hn : decide (x.units < 0) = x.negative := by
    unfold Finite.units
    cases x.negative <;> grind
  rw [hn] at hu
  simp only [ofUnits, Finite.natAbs_units, hn, hu]

/-- 0.1, the least positive number, and overflow. -/
example : ofRatio false 1 10 = ofBits 0x3FB999999999999A ∧
    ofMagnitude false 3 4 = ofBits 1 ∧ ofMagnitude false 1 2 = zero false ∧
    ofInt (2 ^ 53 + 1) = ofInt (2 ^ 53) ∧ ofInt (2 ^ 1024) = .infinity false := by decide +kernel

end Double
end Interchange
