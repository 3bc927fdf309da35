/-
# The ladder of magnitudes

Finite numbers are numbered by their codes.  `magnitudeAt` continues that numbering beyond the last
code, as if the format had no greatest exponent, so that rounding can be stated in one sentence: the
code that `codeOf` gives is the rung nearest to the exact quotient, and of two rungs at equal
distance the one with the even code.

Overflow is then a question of codes too: the rung after the last finite one is 2 ^ 1024, and a
quotient rounds to it, or beyond, from half-way on.

* `codeOf_nearest`: no rung is nearer, and a tie goes to the even code;
* `codeOf_overflow_iff`: which quotients round beyond the last finite number.
-/
import Mathlib.Order.Monotone.Basic
import Mathlib.Tactic.Ring
import Mathlib.Tactic.Linarith
import Interchange.Double.Arithmetic

namespace Interchange

/-! ## 1. The nearest multiple -/

/-- **No multiple is nearer than the one that is rounded to**, which is what the two bounds on the
rounded quotient say together. -/
theorem roundHalfEven_nearest {den : Nat} (h : 0 < den) (num k : Nat) :
    ((num : Int) - roundHalfEven num den * den).natAbs ≤ ((num : Int) - k * den).natAbs := by
  have hup := two_mul_roundHalfEven_le num h
  have hdown := le_two_mul_roundHalfEven num h
  generalize roundHalfEven num den = r at *
  zify at hup hdown
  rcases Nat.lt_trichotomy k r with hlt | rfl | hgt
  · have hstep : (k : Int) * den + den ≤ r * den := by nlinarith
    omega
  · exact Nat.le_refl _
  · have hstep : (r : Int) * den + den ≤ k * den := by nlinarith
    omega

/-- Another multiple is as near only in a tie. -/
theorem roundHalfEven_even_of_tie {den : Nat} (h : 0 < den) {num k : Nat}
    (hk : k ≠ roundHalfEven num den)
    (he : ((num : Int) - roundHalfEven num den * den).natAbs = ((num : Int) - k * den).natAbs) :
    roundHalfEven num den % 2 = 0 := by
  have hup := two_mul_roundHalfEven_le num h
  have hdown := le_two_mul_roundHalfEven num h
  -- the two multiples lie on both sides, half a step away each
  have hhalf : 2 * ((num : Int) - roundHalfEven num den * den).natAbs = den := by
    generalize roundHalfEven num den = r at *
    zify at hup hdown
    rcases Nat.lt_or_gt_of_ne hk with hlt | hgt
    · have hstep : (k : Int) * den + den ≤ r * den := by nlinarith
      omega
    · have hstep : (r : Int) * den + den ≤ k * den := by nlinarith
      omega
  refine roundHalfEven_tie ?_
  have hdiv := Nat.div_add_mod num den
  have hmod := Nat.mod_lt num h
  rw [Nat.mul_comm] at hdiv
  simp only [roundHalfEven] at hhalf
  generalize num % den = remainder at *
  generalize num / den = quotient at *
  zify at hdiv
  split at hhalf
  · omega
  · have hstep : ((quotient + 1 : Nat) : Int) * den = quotient * den + den := by push_cast; ring
    omega

namespace Double

/-! ## 2. The rungs -/

/-- The magnitude in units that stands at a code, also beyond the last code.  With the finite
magnitudes as rungs of one ladder that never ends, rounding can be compared with its neighbours
without asking for an overflow. -/
def magnitudeAt (code : Nat) : Nat :=
  if code < 0x10000000000000 then code
  else (0x10000000000000 + code % 0x10000000000000) <<< (code / 0x10000000000000 - 1)

theorem Finite.magnitude_eq (x : Finite) : x.magnitude = magnitudeAt x.code := by
  have hmod := Nat.mod_lt x.code (show 0 < 0x10000000000000 by decide)
  unfold magnitude significand scale exponent fraction magnitudeAt
  by_cases h : x.code < 0x10000000000000
  · rw [if_pos h, if_pos (by omega), show x.code / 0x10000000000000 - 1 = 0 by omega]
    simp only [Nat.shiftLeft_zero]
    omega
  · rw [if_neg h, if_neg (by omega)]

/-- The rung of a significand `r` of at most 53 bits that is shifted by `s`; without a leading bit
it is a rung only where nothing is shifted. -/
theorem magnitudeAt_of_scale {s r : Nat} (hr : r ≤ 0x20000000000000)
    (hs : s = 0 ∨ 0x10000000000000 ≤ r) :
    magnitudeAt (s * 0x10000000000000 + r) = r * 2 ^ s := by
  unfold magnitudeAt
  split
  · obtain rfl : s = 0 := by omega
    omega
  · rcases Nat.lt_or_eq_of_le hr with hlt | rfl
    · have hdiv : (s * 0x10000000000000 + r) / 0x10000000000000 - 1 = s := by omega
      rw [hdiv, Nat.shiftLeft_eq]
      congr 1
      omega
    · have hdiv : (s * 0x10000000000000 + 0x20000000000000) / 0x10000000000000 - 1 = s + 1 := by
        omega
      have hmod : (s * 0x10000000000000 + 0x20000000000000) % 0x10000000000000 = 0 := by omega
      rw [hdiv, hmod, Nat.shiftLeft_eq, pow_succ]
      ring

theorem exists_scale (code : Nat) :
    ∃ s r, code = s * 0x10000000000000 + r ∧ r < 0x20000000000000 ∧
      (s = 0 ∨ 0x10000000000000 ≤ r) := by
  rcases Nat.lt_or_ge code 0x10000000000000 with h | h
  · exact ⟨0, code, by omega, by omega, .inl rfl⟩
  · refine ⟨code / 0x10000000000000 - 1, 0x10000000000000 + code % 0x10000000000000, ?_, ?_, ?_⟩ <;>
      omega

/-- **The rungs ascend**: neighbouring codes are neighbouring magnitudes, also across the step from
one exponent to the next. -/
theorem magnitudeAt_strictMono : StrictMono magnitudeAt := by
  refine strictMono_nat_of_lt_succ fun code => ?_
  obtain ⟨s, r, rfl, hr, hs⟩ := exists_scale code
  rw [magnitudeAt_of_scale (Nat.le_of_lt hr) hs, Nat.add_assoc,
    magnitudeAt_of_scale hr (by omega)]
  exact Nat.mul_lt_mul_of_pos_right (Nat.lt_succ_self r) (Nat.two_pow_pos s)

/-- Each rung is a multiple of a power of two, or below all rungs with a leading bit there. -/
theorem magnitudeAt_grid (code s : Nat) :
    (∃ k, magnitudeAt code = k * 2 ^ s) ∨
      (0 < s ∧ magnitudeAt code < 0x10000000000000 * 2 ^ s) := by
  obtain ⟨t, r, rfl, hr, ht⟩ := exists_scale code
  rw [magnitudeAt_of_scale (Nat.le_of_lt hr) ht]
  rcases Nat.lt_or_ge t s with hts | hts
  · refine .inr ⟨by omega, ?_⟩
    have hpow : 2 ^ (t + 1) ≤ 2 ^ s := Nat.pow_le_pow_right (by decide) hts
    rw [pow_succ] at hpow
    have := Nat.mul_lt_mul_of_pos_right hr (Nat.two_pow_pos t)
    omega
  · refine .inl ⟨r * 2 ^ (t - s), ?_⟩
    rw [Nat.mul_assoc, ← pow_add, Nat.sub_add_cancel hts]

/-! ## 3. The code of a quotient -/

theorem codeOf_zero {den : Nat} (h : 0 < den) : codeOf 0 den = 0 := by
  simp [codeOf, scaleOf, roundHalfEven, h]

/-- The scale leaves 53 bits of the quotient, and fewer only where nothing is shifted. -/
theorem scaleOf_spec (num den : Nat) :
    num / den < 0x20000000000000 * 2 ^ scaleOf num den ∧
      (scaleOf num den = 0 ∨ 0x10000000000000 * 2 ^ scaleOf num den ≤ num / den) := by
  have h52 : 0x10000000000000 = 2 ^ 52 := rfl
  have h53 : 0x20000000000000 = 2 ^ 53 := rfl
  unfold scaleOf
  generalize num / den = q
  rw [h52, h53, ← pow_add, ← pow_add]
  constructor
  · exact lt_of_lt_of_le Nat.lt_log2_self (Nat.pow_le_pow_right (by decide) (by omega))
  · by_cases hq : q.log2 ≤ 52
    · exact .inl (by omega)
    · have h0 : q ≠ 0 := by
        rintro rfl
        exact hq (by decide)
      refine .inr (le_trans (Nat.pow_le_pow_right (by decide) ?_) (Nat.log2_self_le h0))
      omega

/-- The rounded significand keeps to 53 bits, the carry included. -/
theorem rounded_bounds (num den : Nat) :
    roundHalfEven num (den * 2 ^ scaleOf num den) ≤ 0x20000000000000 ∧
      (scaleOf num den = 0 ∨
        0x10000000000000 ≤ roundHalfEven num (den * 2 ^ scaleOf num den)) := by
  obtain ⟨hlt, hge⟩ := scaleOf_spec num den
  generalize scaleOf num den = s at *
  have hpow := Nat.two_pow_pos s
  have hfloor : num / (den * 2 ^ s) < 0x20000000000000 := by
    rw [← Nat.div_div_eq_div_mul]
    exact (Nat.div_lt_iff_lt_mul hpow).mpr hlt
  have hceil : s = 0 ∨ 0x10000000000000 ≤ num / (den * 2 ^ s) := by
    rw [← Nat.div_div_eq_div_mul]
    exact hge.imp_right (Nat.le_div_iff_mul_le hpow).mpr
  simp only [roundHalfEven]
  split <;> omega

theorem magnitudeAt_codeOf (num den : Nat) :
    magnitudeAt (codeOf num den) =
      roundHalfEven num (den * 2 ^ scaleOf num den) * 2 ^ scaleOf num den := by
  obtain ⟨hle, hge⟩ := rounded_bounds num den
  unfold codeOf
  rw [Nat.shiftLeft_eq]
  exact magnitudeAt_of_scale hle hge

/-- **No rung is nearer than the one that is rounded to, and of two at equal distance it is the one
with the even code.** -/
theorem codeOf_nearest {den : Nat} (h : 0 < den) (num code : Nat) :
    ((num : Int) - magnitudeAt (codeOf num den) * den).natAbs ≤
        ((num : Int) - magnitudeAt code * den).natAbs ∧
      (((num : Int) - magnitudeAt (codeOf num den) * den).natAbs =
          ((num : Int) - magnitudeAt code * den).natAbs →
        code ≠ codeOf num den → codeOf num den % 2 = 0) := by
  have hrung := magnitudeAt_codeOf num den
  have hinj : ∀ c, magnitudeAt c = magnitudeAt (codeOf num den) → c = codeOf num den :=
    fun c hc => magnitudeAt_strictMono.injective hc
  have hparity : codeOf num den % 2 = roundHalfEven num (den * 2 ^ scaleOf num den) % 2 := by
    unfold codeOf
    rw [Nat.shiftLeft_eq]
    omega
  obtain ⟨-, hscale⟩ := scaleOf_spec num den
  rw [hparity]
  generalize hc : codeOf num den = c at *
  generalize hs : scaleOf num den = s at *
  have hstep : 0 < den * 2 ^ s := Nat.mul_pos h (Nat.two_pow_pos s)
  have hmul : ∀ k : Nat, ((k * 2 ^ s : Nat) : Int) * den = k * (den * 2 ^ s : Nat) := by
    intro k
    push_cast
    ring
  rcases magnitudeAt_grid code s with ⟨k, hk⟩ | ⟨hpos, hlow⟩
  · -- on the grid of the scale the rungs are multiples
    rw [hrung, hk, hmul, hmul]
    refine ⟨roundHalfEven_nearest hstep num k, fun he hne => ?_⟩
    refine roundHalfEven_even_of_tie hstep (fun hkr => hne (hinj code ?_)) he
    rw [hk, hkr, hrung]
  · -- below it every rung is farther than the least multiple with a leading bit
    have hnear := roundHalfEven_nearest hstep num 0x10000000000000
    have hge : 0x10000000000000 * (den * 2 ^ s) ≤ num := by
      have := (Nat.le_div_iff_mul_le h).mp (hscale.resolve_left (by omega))
      calc 0x10000000000000 * (den * 2 ^ s) = 0x10000000000000 * 2 ^ s * den := by ring
        _ ≤ num := this
    have hlt : magnitudeAt code * den < 0x10000000000000 * (den * 2 ^ s) := by
      calc magnitudeAt code * den < 0x10000000000000 * 2 ^ s * den :=
            Nat.mul_lt_mul_of_pos_right hlow h
        _ = 0x10000000000000 * (den * 2 ^ s) := by ring
    rw [hrung, hmul]
    zify at hge hlt
    push_cast at hnear ⊢
    generalize (magnitudeAt code : Int) * den = low at *
    generalize (den : Int) * 2 ^ s = step at *
    generalize ((roundHalfEven num (den * 2 ^ s) : Nat) : Int) * step = rung at *
    omega

/-! ## 4. Overflow -/

/-- The code after the last finite one stands at 2 ^ 1024, the last finite one a step below. -/
theorem magnitudeAt_infinity :
    magnitudeAt 0x7FF0000000000000 = 2 ^ 54 * 2 ^ 2044 ∧
      magnitudeAt 0x7FEFFFFFFFFFFFFF = (2 ^ 54 - 2) * 2 ^ 2044 := by
  have hinf : 0x7FF0000000000000 = 2045 * 0x10000000000000 + 0x20000000000000 := rfl
  have hmax : 0x7FEFFFFFFFFFFFFF = 2045 * 0x10000000000000 + 0x1FFFFFFFFFFFFF := rfl
  rw [hinf, hmax, magnitudeAt_of_scale (by decide) (.inr (by decide)),
    magnitudeAt_of_scale (by decide) (.inr (by decide)), pow_succ 2 2044]
  generalize 2 ^ 2044 = power
  omega

/-- **A quotient rounds beyond the last finite number from half-way to 2 ^ 1024 on.** -/
theorem codeOf_overflow_iff {den : Nat} (h : 0 < den) (num : Nat) :
    0x7FF0000000000000 ≤ codeOf num den ↔ (2 ^ 54 - 1) * 2 ^ 2044 * den ≤ num := by
  obtain ⟨hinf, hmax⟩ := magnitudeAt_infinity
  obtain ⟨hn1, ht1⟩ := codeOf_nearest h num 0x7FF0000000000000
  obtain ⟨hn2, ht2⟩ := codeOf_nearest h num 0x7FEFFFFFFFFFFFFF
  have hmono := magnitudeAt_strictMono.monotone
  have hpower : (0 : Nat) < 2 ^ 2044 := pow_pos (by decide) 2044
  generalize 2 ^ 2044 = power at *
  have hpos : 0 < power * den := Nat.mul_pos hpower h
  rw [hinf, ← Nat.cast_mul, ← Nat.cast_mul, Nat.mul_assoc] at hn1 ht1
  rw [hmax, ← Nat.cast_mul, ← Nat.cast_mul, Nat.mul_assoc] at hn2 ht2
  rw [Nat.mul_assoc]
  constructor
  · intro hcode
    have hle := Nat.mul_le_mul_right den (hmono hcode)
    rw [hinf, Nat.mul_assoc] at hle
    generalize power * den = unit at *
    generalize magnitudeAt (codeOf num den) * den = rung at *
    omega
  · intro hge
    by_contra hcode
    have hle := Nat.mul_le_mul_right den
      (hmono (show codeOf num den ≤ 0x7FEFFFFFFFFFFFFF by omega))
    rw [hmax, Nat.mul_assoc] at hle
    -- the quotient is half-way and rounds down, to a code that is not even
    have heven : codeOf num den % 2 = 0 := by
      generalize power * den = unit at *
      generalize magnitudeAt (codeOf num den) * den = rung at *
      exact ht1 (by omega) (by omega)
    have hodd : 0x7FEFFFFFFFFFFFFF = codeOf num den := by
      by_contra hne
      have hlt := Nat.mul_lt_mul_of_pos_right
        (magnitudeAt_strictMono (show codeOf num den < 0x7FEFFFFFFFFFFFFF by omega)) h
      rw [hmax, Nat.mul_assoc] at hlt
      generalize power * den = unit at *
      generalize magnitudeAt (codeOf num den) * den = rung at *
      omega
    omega

end Double
end Interchange
