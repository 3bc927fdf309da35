/-
# General notation as a literal

The text of a finite number in general notation is a literal: some digits with a point among them,
zeros at the end of the fraction left out, and perhaps a power of ten.  Nothing of it is left over
when it is read, and its decimal is the number rounded to sixteen significant digits.

It is written as an integer, without a fraction and an exponent, exactly when that decimal is an
integer of at most sixteen digits.  Positional notation shows a fraction only where one is left
after the zeros are gone; notation with an exponent is used for numbers that are too large or too
small.

* `isInteger_ofPoint_iff`: trimmed digits with a point;
* `decimal_ofSignificant`, `text_ofSignificant`: digits in the style of their exponent;
* `exists_significant`, `exists_isGeneral`: the text of a number.
-/
import Interchange.Decimal.General
import Interchange.Proofs.Decimal.Significant

namespace Interchange

namespace Decimal

/-! ## 1. Fractions -/

theorem cast_value_append (a b : List Char) :
    (value (a ++ b) : ℚ) = 10 ^ b.length * value a + value b := by
  rw [value_append, Nat.cast_add, Nat.cast_mul, cast_powerOfTen]

/-- **Trimming a fraction keeps what it denotes**: the digits lose a power of ten, and so does the
number of places. -/
theorem value_dropTrailingZeros (text : List Char) :
    (value (dropTrailingZeros text) : ℚ) / 10 ^ (dropTrailingZeros text).length =
      value text / 10 ^ text.length := by
  obtain ⟨k, hk⟩ := dropTrailingZeros_append text
  generalize dropTrailingZeros text = kept at hk
  rw [hk, cast_value_append, value_replicate_zero, List.length_append, List.length_replicate,
    Nat.cast_zero, add_zero, pow_add]
  field_simp

theorem isDigit_dropTrailingZeros {text : List Char} (h : ∀ c ∈ text, c.isDigit = true) :
    ∀ c ∈ dropTrailingZeros text, c.isDigit = true := by
  intro c hc
  obtain ⟨k, hk⟩ := dropTrailingZeros_append text
  refine h c ?_
  rw [hk]
  exact List.mem_append_left _ hc

/-- Digits that do not end in a zero denote zero only if there are none. -/
theorem eq_nil_of_value_eq_zero {text : List Char} (h : ∀ c ∈ text, c.isDigit = true)
    (hlast : text.getLast? ≠ some '0') (hvalue : value text = 0) : text = [] := by
  rcases List.eq_nil_or_concat text with hnil | ⟨front, c, rfl⟩
  · exact hnil
  · have hdigit := toNat_of_isDigit (h c (by simp))
    have hsum := value_append front [c]
    have hc : value [c] = c.toNat - 48 := Nat.zero_add _
    rw [List.concat_eq_append] at hvalue hlast
    rw [List.getLast?_concat] at hlast
    have hzero : c.toNat = '0'.toNat := by
      have h48 : '0'.toNat = 48 := rfl
      omega
    exact absurd (congrArg some (Char.toNat_inj.mp hzero)) hlast

theorem fraction_bounds {a k : Nat} (h : a < powerOfTen k) :
    0 ≤ (a : ℚ) / 10 ^ k ∧ (a : ℚ) / 10 ^ k < 1 := by
  have hpos : (0 : ℚ) < 10 ^ k := pow_pos (by norm_num) k
  refine ⟨div_nonneg (Nat.cast_nonneg a) hpos.le, (div_lt_one hpos).mpr ?_⟩
  rw [← cast_powerOfTen]
  exact Nat.cast_lt.mpr h

theorem whole_eq_of_add_eq {m n a b k l : Nat} (ha : a < powerOfTen k) (hb : b < powerOfTen l)
    (h : (m : ℚ) + a / 10 ^ k = n + b / 10 ^ l) : m = n ∧ (a : ℚ) / 10 ^ k = b / 10 ^ l := by
  obtain ⟨ha0, ha1⟩ := fraction_bounds ha
  obtain ⟨hb0, hb1⟩ := fraction_bounds hb
  have hle : (m : ℚ) < (n + 1 : Nat) := by
    push_cast
    linarith
  have hge : (n : ℚ) < (m + 1 : Nat) := by
    push_cast
    linarith
  rw [Nat.cast_lt] at hle hge
  have hsame : m = n := by omega
  rw [hsame] at h
  exact ⟨hsame, add_left_cancel h⟩

end Decimal

namespace Literal

open Decimal

/-! ## 2. Digits with a point -/

def fractionOf (digits : List Char) : Option (List Char) :=
  if digits = [] then none else some digits

theorem getD_fractionOf (digits : List Char) : (fractionOf digits).getD [] = digits := by
  unfold fractionOf
  split
  · next h => exact h.symm
  · rfl

theorem append_fractionText (whole digits : List Char) :
    whole ++ fractionText (fractionOf digits) = joinFraction whole digits := by
  unfold fractionOf joinFraction
  split
  · exact List.append_nil whole
  · rfl

namespace Spelling

/-- Digits with the point behind the first `point` of them; zeros at the end of the fraction are not
written. -/
def ofPoint (negative : Bool) (text : List Char) (point : Nat) (exponent : Option Exponent) :
    Spelling :=
  ⟨negative, text.take point, fractionOf (dropTrailingZeros (text.drop point)), exponent⟩

/-- A power of ten as it is written: with its sign, in at least two digits. -/
def exponentOf (e : Int) : Exponent := ⟨'e', some (if e < 0 then '-' else '+'), padded 2 e.natAbs⟩

theorem isExponent_exponentOf (e : Int) : IsExponent (some (exponentOf e)) [] := by
  refine .present (.inl rfl) ?_ ⟨fun c => isDigit_of_mem_padded, by simp⟩
  split
  · exact .minus
  · exact .plus

theorem power_of_exponent {s : Spelling} {e : Int} (hs : s.exponent = some (exponentOf e))
    (h : e.natAbs ≤ exponentLimit) : s.power = e := by
  simp only [power, hs, exponentOf, value_padded, Nat.min_eq_left h]
  by_cases hneg : e < 0
  · rw [if_pos hneg, if_pos rfl]
    omega
  · rw [if_neg hneg, if_neg (by decide)]
    omega

section OfPoint

variable {negative : Bool} {text : List Char} {point : Nat} {exponent : Option Exponent}

theorem text_ofPoint (negative : Bool) (text : List Char) (point : Nat)
    (exponent : Option Exponent) :
    (ofPoint negative text point exponent).text = minusText negative ++
      joinFraction (text.take point) (dropTrailingZeros (text.drop point)) ++
      exponentText exponent := by
  rw [← append_fractionText, Spelling.text, ofPoint, List.append_assoc (minusText negative)]

theorem fractionDigits_ofPoint (negative : Bool) (text : List Char) (point : Nat)
    (exponent : Option Exponent) : (ofPoint negative text point exponent).fractionDigits =
      dropTrailingZeros (text.drop point) := getD_fractionOf _

theorem decimal_ofPoint (negative : Bool) (text : List Char) (point : Nat)
    (exponent : Option Exponent) :
    (ofPoint negative text point exponent).decimal =
      (value text : ℚ) / 10 ^ (text.length - point) *
        10 ^ (ofPoint negative text point exponent).power := by
  have hsplit := cast_value_append (text.take point) (text.drop point)
  rw [List.take_append_drop, List.length_drop] at hsplit
  rw [decimal, fractionDigits_ofPoint, value_dropTrailingZeros, List.length_drop, hsplit]
  congr 1
  rw [ofPoint]
  field_simp

/-- **Digits with a point are the whole literal.** -/
theorem greedy_ofPoint (htext : ∀ c ∈ text, c.isDigit = true) (hpoint : 0 < point)
    (hne : text ≠ []) (hexponent : IsExponent exponent []) :
    (ofPoint negative text point exponent).Greedy [] := by
  have hfraction : ∀ c ∈ dropTrailingZeros (text.drop point), c.isDigit = true :=
    isDigit_dropTrailingZeros fun c hc => htext c (List.mem_of_mem_drop hc)
  -- what follows the digits is an exponent or nothing
  have hmark : ∀ c ∈ (exponentText exponent ++ []).head?, c = 'e' ∨ c = 'E' := by
    intro c hc
    cases hexponent with
    | absent => simp [exponentText] at hc
    | present hm =>
      rw [exponentText, List.cons_append, List.head?_cons, Option.mem_some_iff] at hc
      exact hc ▸ hm
  refine ⟨fun hsign hminus => ?_, ⟨fun c hc => htext c (List.mem_of_mem_take hc), ?_⟩, ?_,
    hexponent⟩
  · obtain ⟨first, more, rfl⟩ := List.exists_cons_of_ne_nil hne
    obtain ⟨k, rfl⟩ := Nat.exists_eq_add_one.mpr hpoint
    have hfirst : first.isDigit = true := htext first List.mem_cons_self
    change negative = false at hsign
    rw [Spelling.text, ofPoint, hsign] at hminus
    simp only [minusText, List.take_succ_cons, List.nil_append, List.cons_append, List.head?_cons,
      Option.mem_some_iff] at hminus
    exact ne_minus_of_isDigit hfirst hminus
  · intro c hc
    change c ∈ (fractionText (fractionOf _) ++ _).head? at hc
    unfold fractionOf at hc
    split at hc
    · rcases hmark c hc with rfl | rfl <;> rfl
    · obtain rfl : '.' = c := Option.some.inj hc
      rfl
  · change IsFraction (fractionOf _) _
    unfold fractionOf
    split
    · refine .absent fun hpoint => ?_
      rcases hmark '.' hpoint with h | h <;> exact absurd h (by decide)
    · refine .present ⟨hfraction, fun c hc => ?_⟩
      rcases hmark c hc with rfl | rfl <;> rfl

/-- **Without an exponent, trimmed digits with a point are an integer exactly when they are written
as one.** -/
theorem isInteger_ofPoint_iff (htext : ∀ c ∈ text, c.isDigit = true) :
    (ofPoint negative text point none).IsInteger ↔
      ∃ m : Nat, (ofPoint negative text point none).decimal = m := by
  have hpower : (ofPoint negative text point none).power = 0 := rfl
  have hdigits : ∀ c ∈ dropTrailingZeros (text.drop point), c.isDigit = true :=
    isDigit_dropTrailingZeros fun c hc => htext c (List.mem_of_mem_drop hc)
  have hlast := getLast?_dropTrailingZeros (text.drop point)
  rw [IsInteger, hpower, decimal, fractionDigits_ofPoint, hpower, zpow_zero, mul_one]
  generalize dropTrailingZeros (text.drop point) = fraction at hdigits hlast
  constructor
  · rintro ⟨rfl, -⟩
    exact ⟨value (text.take point), by rw [value_nil, Nat.cast_zero, zero_div, add_zero]; rfl⟩
  · rintro ⟨m, hm⟩
    refine ⟨eq_nil_of_value_eq_zero hdigits hlast ?_, rfl⟩
    -- the same whole part without a fraction
    have hnone : (m : ℚ) = m + (0 : Nat) / 10 ^ 0 := by rw [Nat.cast_zero, zero_div, add_zero]
    obtain ⟨-, hzero⟩ := whole_eq_of_add_eq (value_lt hdigits) (powerOfTen_pos 0) (hm.trans hnone)
    have hpow : (10 : ℚ) ^ fraction.length ≠ 0 := pow_ne_zero _ ten_ne_zero
    rw [Nat.cast_zero, zero_div, div_eq_zero_iff, or_iff_left hpow] at hzero
    exact_mod_cast hzero

end OfPoint

/-! ## 3. The two styles -/

/-- Positional notation of digits that end so many places behind the point. -/
def positional (negative : Bool) (places r : Nat) : Spelling :=
  ofPoint negative (padded (places + 1) r) ((padded (places + 1) r).length - places) none

/-- Notation with an exponent, of digits with the point behind the first. -/
def scientific (negative : Bool) (r : Nat) (e : Int) : Spelling :=
  ofPoint negative (digits r) 1 (some (exponentOf e))

/-- The digits of general notation, in the style that their exponent asks for: the literal whose
text `generalMagnitude` writes. -/
def ofSignificant (negative : Bool) (r : Nat) (e : Int) : Spelling :=
  if isPositional e then positional negative ((precision : Int) - 1 - e).toNat r
  else scientific negative r e

theorem isPositional_iff {e : Int} : isPositional e = true ↔ -4 ≤ e ∧ e < precision := by
  rw [isPositional, Bool.and_eq_true, decide_eq_true_eq, decide_eq_true_eq]

theorem text_positional (negative : Bool) (places r : Nat) :
    (positional negative places r).text = minusText negative ++ withPlaces places r := by
  rw [positional, text_ofPoint, exponentText, List.append_nil]
  rfl

theorem text_scientific (negative : Bool) (r : Nat) (e : Int) :
    (scientific negative r e).text = minusText negative ++ withExponent (digits r) e := by
  rw [scientific, text_ofPoint, List.append_assoc]
  rfl

theorem lt_length_padded (places r : Nat) : places < (padded (places + 1) r).length := by
  simp only [padded, List.length_append, List.length_replicate]
  omega

theorem decimal_positional (negative : Bool) (places r : Nat) :
    (positional negative places r).decimal = (r : ℚ) / 10 ^ places := by
  have hlong := lt_length_padded places r
  have hback : (padded (places + 1) r).length - ((padded (places + 1) r).length - places) =
      places := by omega
  rw [positional, decimal_ofPoint, value_padded, hback]
  exact mul_one _

theorem power_scientific (negative : Bool) (r : Nat) {e : Int} (h : e.natAbs ≤ exponentLimit) :
    (scientific negative r e).power = e := power_of_exponent rfl h

theorem greedy_ofSignificant (negative : Bool) (r : Nat) (e : Int) :
    (ofSignificant negative r e).Greedy [] := by
  unfold ofSignificant
  split
  · have hlong := lt_length_padded ((precision : Int) - 1 - e).toNat r
    exact greedy_ofPoint (fun c => isDigit_of_mem_padded) (by omega)
      (List.ne_nil_of_length_pos (by omega)) (.absent (by simp) (by simp))
  · exact greedy_ofPoint (fun c => isDigit_of_mem_digits) Nat.one_pos (digits_ne_nil r)
      (isExponent_exponentOf e)

theorem negative_ofSignificant (negative : Bool) (r : Nat) (e : Int) :
    (ofSignificant negative r e).negative = negative := by
  unfold ofSignificant
  split <;> rfl

section Significant

variable {r : Nat} {e : Int}

/-- **Both styles denote the digits at their exponent**, however many zeros are trimmed. -/
theorem decimal_ofSignificant (negative : Bool)
    (hr : powerOfTen (precision - 1) ≤ r ∧ r < powerOfTen precision)
    (hlimit : e.natAbs ≤ exponentLimit) :
    (ofSignificant negative r e).decimal = r * 10 ^ (e - ((precision : Int) - 1)) := by
  unfold ofSignificant
  split
  · next hstyle =>
    rw [isPositional_iff] at hstyle
    obtain ⟨places, hplaces⟩ : ∃ places : Nat, (precision : Int) - 1 - e = places :=
      Int.eq_ofNat_of_zero_le (by omega)
    have hexp : e - ((precision : Int) - 1) = -(places : Int) := by omega
    rw [hplaces, Int.toNat_natCast, decimal_positional, hexp, zpow_neg, zpow_natCast,
      div_eq_mul_inv]
  · have hplaces : (10 : ℚ) ^ ((precision : Int) - 1) = 10 ^ (precision - 1) :=
      zpow_natCast 10 (precision - 1)
    have hpower := power_scientific negative r hlimit
    have hlength : (digits r).length = precision := length_digits hr
    rw [scientific] at hpower ⊢
    rw [decimal_ofPoint, hpower, value_digits, hlength, zpow_sub₀ ten_ne_zero, hplaces]
    ring

/-- What is written with an exponent is too large or too small for an integer of so few digits. -/
theorem not_natCast_of_not_positional {x : ℚ} (hlead : IsLeading x e)
    (he : isPositional e = false) :
    ¬∃ m : Nat, x = m ∧ m < powerOfTen precision := by
  have hten : (1 : ℚ) ≤ 10 := by norm_num
  rintro ⟨m, rfl, hsmall⟩
  rw [isPositional, Bool.and_eq_false_iff, decide_eq_false_iff_not, decide_eq_false_iff_not] at he
  rcases he with hlow | hhigh
  · -- between zero and one
    have hone : (m : ℚ) < 1 := hlead.2.trans_le (zpow_le_one_of_nonpos₀ hten (by omega))
    have hpos : (0 : ℚ) < m := (ten_zpow_pos e).trans_le hlead.1
    have h1 : m < 1 := by exact_mod_cast hone
    have h0 : 0 < m := by exact_mod_cast hpos
    omega
  · have hlarge : (10 : ℚ) ^ (precision : Int) ≤ m :=
      (zpow_le_zpow_right₀ hten (by omega)).trans hlead.1
    rw [zpow_natCast, ← cast_powerOfTen, Nat.cast_le] at hlarge
    exact absurd hsmall (Nat.not_lt.mpr hlarge)

/-- **The digits are written as an integer exactly when they are one of no more digits.** -/
theorem isInteger_ofSignificant_iff (negative : Bool)
    (hr : powerOfTen (precision - 1) ≤ r ∧ r < powerOfTen precision)
    (hlimit : e.natAbs ≤ exponentLimit) :
    (ofSignificant negative r e).IsInteger ↔
      ∃ m : Nat, (ofSignificant negative r e).decimal = m ∧ m < powerOfTen precision := by
  have hlead : IsLeading (ofSignificant negative r e).decimal e :=
    decimal_ofSignificant negative hr hlimit ▸ isLeading_digits hr e
  unfold ofSignificant at hlead ⊢
  split at hlead
  · next hstyle =>
    rw [if_pos hstyle, positional, isInteger_ofPoint_iff fun c => isDigit_of_mem_padded,
      ← positional]
    constructor
    · rintro ⟨m, hm⟩
      refine ⟨m, hm, ?_⟩
      -- the leading digit stands for less than the limit
      rw [isPositional_iff] at hstyle
      have hlt := hlead.2.trans_le (zpow_le_zpow_right₀ (by norm_num)
        (show e + 1 ≤ (precision : Int) by omega))
      rw [hm, zpow_natCast, ← cast_powerOfTen] at hlt
      exact Nat.cast_lt.mp hlt
    · rintro ⟨m, hm, -⟩
      exact ⟨m, hm⟩
  · next hstyle =>
    have he : isPositional e = false := Bool.not_eq_true _ ▸ hstyle
    rw [if_neg hstyle]
    constructor
    · rintro ⟨-, hzero⟩
      rw [power_scientific negative r hlimit] at hzero
      rw [hzero] at he
      exact absurd he (by decide)
    · intro hsmall
      exact absurd hsmall (not_natCast_of_not_positional hlead he)

/-- **The text of a positive quotient are its digits**: the places that positional notation shows
are rounded from the quotient again, and they are the same digits. -/
theorem text_ofSignificant {num den : Nat} (negative : Bool) (hnum : 0 < num) (hden : 0 < den)
    (h : toSignificant precision num den = (r, e)) :
    (ofSignificant negative r e).text = minusText negative ++ generalMagnitude num den := by
  obtain ⟨-, -, hplaces⟩ := toSignificant_spec (show 0 < precision by decide) hnum hden h
  rw [generalMagnitude, h, ofSignificant]
  dsimp only
  split
  · next hstyle =>
    rw [isPositional_iff] at hstyle
    have hcount : (((precision : Int) - 1 - e).toNat : Int) = (precision : Int) - 1 - e :=
      Int.toNat_of_nonneg (by omega)
    rw [hcount, hplaces, text_positional]
  · exact text_scientific negative r e

end Significant

/-- The literal `s` is the positive number `x` in general notation: nothing of it is left over, it
denotes `x` rounded to the digits of that notation, and it is written as an integer exactly when
that is one of no more digits. -/
structure IsGeneral (s : Spelling) (x : ℚ) : Prop where
  greedy : s.Greedy []
  significant : IsSignificant precision x s.decimal
  isInteger_iff : s.IsInteger ↔ ∃ m : Nat, s.decimal = m ∧ m < powerOfTen precision

theorem isGeneral_ofSignificant {r : Nat} {e : Int} {x : ℚ} (negative : Bool)
    (hr : powerOfTen (precision - 1) ≤ r ∧ r < powerOfTen precision)
    (hlimit : e.natAbs ≤ exponentLimit)
    (h : IsSignificant precision x (r * 10 ^ (e - ((precision : Int) - 1)))) :
    (ofSignificant negative r e).IsGeneral x := by
  refine ⟨greedy_ofSignificant negative r e, ?_, isInteger_ofSignificant_iff negative hr hlimit⟩
  rwa [decimal_ofSignificant negative hr hlimit]

end Spelling

end Literal

/-! ## 4. The literal of a number -/

namespace Double

theorem Finite.value_eq_zero_iff (x : Finite) : x.value = 0 ↔ x.code = 0 := by
  rw [Finite.value, div_eq_zero_iff, or_iff_left cast_unitsPerOne_pos.ne', Int.cast_eq_zero]
  exact x.units_eq_zero_iff

/-- Numbers other than zero are neither beyond 2 ^ 1024 nor below the least unit. -/
theorem Finite.abs_value_bounds {x : Finite} (h : x.code ≠ 0) :
    1 / 2 ^ 1074 ≤ |x.value| ∧ |x.value| < 2 ^ 1024 := by
  have hunit := cast_unitsPerOne_pos
  have hpos : 1 ≤ x.magnitude :=
    Nat.one_le_iff_ne_zero.mpr fun hzero => h ((Finite.magnitude_eq_zero_iff x).mp hzero)
  have hlt : x.magnitude < 2 ^ 1024 * unitsPerOne := by
    have hinf : magnitudeAt 0x7FF0000000000000 = 2 ^ 1024 * unitsPerOne := by
      rw [magnitudeAt_infinity.1, unitsPerOne_eq, ← pow_add, ← pow_add]
    rw [Finite.magnitude_eq, ← hinf]
    exact magnitudeAt_strictMono x.code_lt
  rw [Finite.abs_value, ← cast_unitsPerOne, div_le_div_iff_of_pos_right hunit, div_lt_iff₀ hunit]
  exact ⟨by exact_mod_cast hpos, by exact_mod_cast hlt⟩

theorem leading_bounds {x : Finite} (h : x.code ≠ 0) {e : Int}
    (he : Decimal.IsLeading |x.value| e) : -324 ≤ e ∧ e ≤ 308 := by
  obtain ⟨hlow, hhigh⟩ := Finite.abs_value_bounds h
  have hten : (1 : ℚ) < 10 := by norm_num
  have hleast : (2 : Nat) ^ 1074 ≤ 10 ^ 324 := by decide +kernel
  have hgreatest : (2 : Nat) ^ 1024 ≤ 10 ^ 309 := by decide +kernel
  constructor
  · have hunit : (10 : ℚ) ^ (-324 : Int) ≤ 1 / 2 ^ 1074 := by
      have hcast : (2 : ℚ) ^ 1074 ≤ 10 ^ 324 := by exact_mod_cast hleast
      rw [zpow_neg, one_div]
      exact inv_anti₀ (pow_pos (by norm_num) 1074) hcast
    have := (zpow_lt_zpow_iff_right₀ hten).mp ((hunit.trans hlow).trans_lt he.2)
    omega
  · have hcast : (2 : ℚ) ^ 1024 ≤ 10 ^ (309 : Int) := by exact_mod_cast hgreatest
    have := (zpow_lt_zpow_iff_right₀ hten).mp (he.1.trans_lt (hhigh.trans_le hcast))
    omega

end Double

namespace Literal

open Decimal Double

/-- **The text of a number other than zero are its significant digits** in their style. -/
theorem exists_significant {x : Finite} (h : x.code ≠ 0) :
    ∃ (r : Nat) (e : Int), toSignificant precision x.magnitude unitsPerOne = (r, e) ∧
      (powerOfTen (precision - 1) ≤ r ∧ r < powerOfTen precision) ∧
      IsSignificant precision |x.value| (r * 10 ^ (e - ((precision : Int) - 1))) ∧
      roundAt x.magnitude unitsPerOne ((precision : Int) - 1 - e) = r ∧
      e.natAbs ≤ Spelling.exponentLimit ∧
      (Spelling.ofSignificant x.negative r e).text = (Double.finite x).general := by
  have hnum : 0 < x.magnitude :=
    Nat.pos_of_ne_zero fun hzero => h ((Finite.magnitude_eq_zero_iff x).mp hzero)
  have hgeneral : (Double.finite x).general =
      minusText x.negative ++ generalMagnitude x.magnitude unitsPerOne := by
    unfold Double.general
    dsimp only
    rw [if_neg h]
    generalize generalMagnitude x.magnitude unitsPerOne = text
    cases x.negative <;> rfl
  rcases hdigits : toSignificant precision x.magnitude unitsPerOne with ⟨r, e⟩
  obtain ⟨hr, hsignificant, hplaces⟩ :=
    toSignificant_spec (show 0 < precision by decide) hnum unitsPerOne_pos hdigits
  have hlead := leadingExponent_spec hnum unitsPerOne_pos
  rw [← Finite.abs_value] at hlead hsignificant
  obtain ⟨hlow, hhigh⟩ := leading_bounds h hlead
  have hexponent := toSignificant_exponent hdigits
  have hlimit : Spelling.exponentLimit = 100000 := rfl
  refine ⟨r, e, rfl, hr, hsignificant, hplaces, by omega, ?_⟩
  rw [hgeneral]
  exact Spelling.text_ofSignificant x.negative hnum unitsPerOne_pos hdigits

/-- **The text of a number other than zero is one literal**, the number in general notation. -/
theorem exists_isGeneral {x : Finite} (h : x.code ≠ 0) :
    ∃ s : Spelling, s.text = (Double.finite x).general ∧ s.negative = x.negative ∧
      s.IsGeneral |x.value| := by
  obtain ⟨r, e, -, hr, hsignificant, -, hlimit, htext⟩ := exists_significant h
  exact ⟨_, htext, Spelling.negative_ofSignificant x.negative r e,
    Spelling.isGeneral_ofSignificant x.negative hr hlimit hsignificant⟩

end Literal
end Interchange
