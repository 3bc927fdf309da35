/-
# The one text of a number in general notation

General notation leaves no choice.  The number is rounded to sixteen significant digits, and the
exponent of the leading one after that decides how they are laid out: with the point in its place,
or with the point behind the first digit and a power of ten.  No zero stands at the end of a
fraction, none in front of a whole part but alone, and no point without a fraction.  Literals that
are laid out so and denote the same decimal are the same.

* `HasStyle`: how the digits are laid out;
* `HasStyle.unique`: the decimal and its exponent leave one literal;
* `general_eq_iff`: the text of a number is that literal.
-/
import Interchange.Proofs.Numeral.General

namespace Interchange

namespace Decimal

/-! ## 1. Fractions and whole parts -/

section Fractions

variable {a b : List Char}

/-- The shorter of two fractions that denote the same is the longer one without its zeros. -/
theorem exists_eq_append_zeros (ha : ∀ c ∈ a, c.isDigit = true) (hb : ∀ c ∈ b, c.isDigit = true)
    (h : (value a : ℚ) / 10 ^ a.length = value b / 10 ^ b.length) (hle : a.length ≤ b.length) :
    ∃ k, b = a ++ List.replicate k '0' := by
  obtain ⟨k, hk⟩ := Nat.exists_eq_add_of_le hle
  have hlength : b.length = (a ++ List.replicate k '0').length := by
    rw [List.length_append, List.length_replicate, hk]
  refine ⟨k, eq_of_value_eq hb (fun c hc => ?_) hlength ?_⟩
  · rcases List.mem_append.mp hc with hc | hc
    · exact ha c hc
    · rw [(List.mem_replicate.mp hc).2]
      rfl
  · have hvalue : (value b : ℚ) = value (a ++ List.replicate k '0') := by
      rw [cast_value_append, value_replicate_zero, List.length_replicate, Nat.cast_zero, add_zero]
      rw [hk, pow_add] at h
      field_simp at h
      linarith
    exact_mod_cast hvalue

theorem eq_of_append_zeros (hlast : b.getLast? ≠ some '0') {k : Nat}
    (h : b = a ++ List.replicate k '0') : b = a := by
  cases k with
  | zero => rw [h, List.replicate_zero, List.append_nil]
  | succ k =>
    rw [h, List.replicate_succ', ← List.append_assoc, List.getLast?_concat] at hlast
    exact absurd rfl hlast

/-- **Trimmed fractions are told apart by what they denote.** -/
theorem eq_of_fraction_eq (ha : ∀ c ∈ a, c.isDigit = true) (hb : ∀ c ∈ b, c.isDigit = true)
    (hlast : a.getLast? ≠ some '0') (hlast' : b.getLast? ≠ some '0')
    (h : (value a : ℚ) / 10 ^ a.length = value b / 10 ^ b.length) : a = b := by
  rcases Nat.le_total a.length b.length with hle | hle
  · obtain ⟨k, hk⟩ := exists_eq_append_zeros ha hb h hle
    exact (eq_of_append_zeros hlast' hk).symm
  · obtain ⟨k, hk⟩ := exists_eq_append_zeros hb ha h.symm hle
    exact eq_of_append_zeros hlast hk

end Fractions

theorem powerOfTen_add (j k : Nat) : powerOfTen (j + k) = powerOfTen j * powerOfTen k :=
  Nat.pow_add 10 j k

/-- The digits in front of the last ones denote the quotient by the power of ten of those. -/
theorem value_append_div (front : List Char) {back : List Char}
    (h : ∀ c ∈ back, c.isDigit = true) :
    value (front ++ back) / powerOfTen back.length = value front := by
  rw [value_append, Nat.mul_add_div (powerOfTen_pos _), Nat.div_eq_of_lt (value_lt h), Nat.add_zero]

/-- The quotient by a power of ten has that many digits less; one is always left. -/
theorem length_digits_div {p r : Nat} (hr : powerOfTen p ≤ r ∧ r < powerOfTen (p + 1))
    (places : Nat) : (digits (r / powerOfTen places)).length = p - places + 1 := by
  have hpos := powerOfTen_pos places
  rcases Nat.lt_or_ge p places with hlt | hle
  · have hsmall : r < powerOfTen places :=
      hr.2.trans_le (Nat.pow_le_pow_right (by decide) hlt)
    rw [Nat.div_eq_of_lt hsmall, Nat.sub_eq_zero_of_le hlt.le]
    rfl
  · obtain ⟨k, rfl⟩ := Nat.exists_eq_add_of_le' hle
    rw [Nat.add_sub_cancel]
    refine length_digits ⟨?_, ?_⟩
    · rw [Nat.le_div_iff_mul_le hpos, ← powerOfTen_add]
      exact hr.1
    · rw [Nat.div_lt_iff_lt_mul hpos, ← powerOfTen_add, Nat.add_right_comm]
      exact hr.2

/-- **The digits in front of the point are those of the whole part**, with no zero in front of
them. -/
theorem take_padded {p r : Nat} (hr : powerOfTen p ≤ r ∧ r < powerOfTen (p + 1)) (places : Nat) :
    (padded (places + 1) r).take ((padded (places + 1) r).length - places) =
      digits (r / powerOfTen places) := by
  have hdigits : ∀ c ∈ padded (places + 1) r, c.isDigit = true := fun c => isDigit_of_mem_padded
  have hvalue := value_padded (places + 1) r
  have hlength : (padded (places + 1) r).length = max (places + 1) (p + 1) := by
    simp only [padded, List.length_append, List.length_replicate, length_digits hr]
    omega
  generalize padded (places + 1) r = text at *
  have hback : (text.drop (text.length - places)).length = places := by
    rw [List.length_drop]
    omega
  have hfront := value_append_div (text.take (text.length - places)) fun c hc =>
    hdigits c (List.mem_of_mem_drop (i := text.length - places) hc)
  rw [List.take_append_drop, hvalue, hback] at hfront
  refine eq_of_value_eq (fun c hc => hdigits c (List.mem_of_mem_take hc))
    (fun c => isDigit_of_mem_digits) ?_ (by rw [value_digits, hfront])
  rw [length_digits_div hr, List.length_take]
  omega

end Decimal

namespace Literal

open Decimal

namespace Spelling

/-! ## 2. The layout of the digits -/

/-- The literal is laid out for a leading digit that stands for `10 ^ e`.  No zero ends its
fraction, and a point has a fraction.  Exponents from -4 to 15 are not written, and the whole part
is then a number with no zeros in front; others are written with a sign and in at least two digits,
behind a whole part of one digit. -/
structure HasStyle (s : Spelling) (e : Int) : Prop where
  trimmed : ∀ fraction ∈ s.fraction, fraction ≠ [] ∧ fraction.getLast? ≠ some '0'
  plain : -4 ≤ e ∧ e < 16 → s.exponent = none ∧ s.whole = digits (value s.whole)
  scientific : ¬(-4 ≤ e ∧ e < 16) → s.exponent = some (exponentOf e) ∧ s.whole.length = 1

theorem Greedy.isDigit_fractionDigits {s : Spelling} {rest : List Char} (h : s.Greedy rest) :
    ∀ c ∈ s.fractionDigits, c.isDigit = true := by
  intro c hc
  have hfraction := h.fraction
  unfold fractionDigits at hc
  cases hs : s.fraction with
  | none =>
    rw [hs] at hc
    cases hc
  | some digits =>
    rw [hs] at hc hfraction
    cases hfraction with
    | present hrun => exact hrun.1 c hc

section Layout

variable {s t : Spelling} {e : Int}

theorem HasStyle.fraction_eq (h : s.HasStyle e) : s.fraction = fractionOf s.fractionDigits := by
  unfold fractionDigits fractionOf
  cases hs : s.fraction with
  | none => rfl
  | some fraction => exact (if_neg (h.trimmed fraction hs).1).symm

theorem HasStyle.getLast?_fractionDigits (h : s.HasStyle e) :
    s.fractionDigits.getLast? ≠ some '0' := by
  unfold fractionDigits
  cases hs : s.fraction with
  | none => simp
  | some fraction => exact (h.trimmed fraction hs).2

theorem HasStyle.exponent_eq (hs : s.HasStyle e) (ht : t.HasStyle e) : s.exponent = t.exponent := by
  by_cases hstyle : -4 ≤ e ∧ e < 16
  · rw [(hs.plain hstyle).1, (ht.plain hstyle).1]
  · rw [(hs.scientific hstyle).1, (ht.scientific hstyle).1]

/-- **The decimal and the exponent of its leading digit leave one literal.**  The whole part and the
trimmed fraction are found again from their sum, one part at a time. -/
theorem HasStyle.unique (hs : s.HasStyle e) (ht : t.HasStyle e) (hsgreedy : s.Greedy [])
    (htgreedy : t.Greedy []) (hsign : s.negative = t.negative) (h : s.decimal = t.decimal) :
    s = t := by
  have hsdigits := hsgreedy.isDigit_fractionDigits
  have htdigits := htgreedy.isDigit_fractionDigits
  have hexponent := hs.exponent_eq ht
  have hpower : s.power = t.power := by rw [power, power, hexponent]
  obtain ⟨hvalue, hdenotes⟩ : value s.whole = value t.whole ∧
      (value s.fractionDigits : ℚ) / 10 ^ s.fractionDigits.length =
        value t.fractionDigits / 10 ^ t.fractionDigits.length := by
    rw [decimal, decimal, hpower, mul_left_inj' (ten_zpow_pos t.power).ne'] at h
    exact whole_eq_of_add_eq (value_lt hsdigits) (value_lt htdigits) h
  have hfraction : s.fraction = t.fraction := by
    rw [hs.fraction_eq, ht.fraction_eq, eq_of_fraction_eq hsdigits htdigits
      hs.getLast?_fractionDigits ht.getLast?_fractionDigits hdenotes]
  have hwhole : s.whole = t.whole := by
    by_cases hstyle : -4 ≤ e ∧ e < 16
    · rw [(hs.plain hstyle).2, (ht.plain hstyle).2, hvalue]
    · refine eq_of_value_eq hsgreedy.whole.1 htgreedy.whole.1 ?_ hvalue
      rw [(hs.scientific hstyle).2, (ht.scientific hstyle).2]
  obtain ⟨negative, whole, fraction, exponent⟩ := s
  obtain ⟨negative', whole', fraction', exponent'⟩ := t
  simp only at hsign hwhole hfraction hexponent
  rw [hsign, hwhole, hfraction, hexponent]

end Layout

/-! ## 3. The text of a number -/

/-- Digits with a point end in no zero, and they have a point only if some are left. -/
theorem trimmed_ofPoint (negative : Bool) (text : List Char) (point : Nat)
    (exponent : Option Exponent) :
    ∀ fraction ∈ (ofPoint negative text point exponent).fraction,
      fraction ≠ [] ∧ fraction.getLast? ≠ some '0' := by
  intro fraction hfraction
  change fraction ∈ fractionOf (dropTrailingZeros (text.drop point)) at hfraction
  unfold fractionOf at hfraction
  split at hfraction
  · cases hfraction
  · next hne =>
    obtain rfl := Option.mem_some_iff.mp hfraction
    exact ⟨hne, getLast?_dropTrailingZeros _⟩

/-- **The digits of general notation have the style of their exponent.** -/
theorem hasStyle_ofSignificant (negative : Bool) {r : Nat} (e : Int)
    (hr : powerOfTen (precision - 1) ≤ r ∧ r < powerOfTen precision) :
    (ofSignificant negative r e).HasStyle e := by
  unfold ofSignificant
  split
  · next hstyle =>
    refine ⟨trimmed_ofPoint _ _ _ _, fun _ => ⟨rfl, ?_⟩, fun hnot => ?_⟩
    · have hwhole := take_padded (p := precision - 1) hr ((precision : Int) - 1 - e).toNat
      change List.take _ _ = digits (value (List.take _ _))
      rw [hwhole, value_digits]
    · exact absurd (isPositional_iff.mp hstyle) hnot
  · next hstyle =>
    refine ⟨trimmed_ofPoint _ _ _ _, fun hplain => ?_, fun _ => ⟨rfl, ?_⟩⟩
    · exact absurd (isPositional_iff.mpr hplain) hstyle
    · have hpos := List.length_pos_of_ne_nil (digits_ne_nil r)
      change (List.take 1 (digits r)).length = 1
      rw [List.length_take]
      omega

end Spelling

open Double in
/-- **The text of a number other than zero.**  Its digits `r` are the number rounded to sixteen
significant digits, half to even, and `e` is the exponent of the first of them.  Rounded again, to
the places that the last of them stands at, the number has the same digits.  The text is the literal
that has the sign of the number, denotes just these digits and is laid out for their exponent, and
no other text is. -/
theorem general_eq_iff {x : Finite} (hx : x.value ≠ 0) :
    ∃ (r : Nat) (e : Int), (10 ^ 15 ≤ r ∧ r < 10 ^ 16) ∧
      IsSignificant 16 |x.value| (r * 10 ^ (e - 15)) ∧
      IsHalfEven (|x.value| * 10 ^ (15 - e)) r ∧
      toSignificant 16 x.magnitude unitsPerOne = (r, e) ∧
      roundAt x.magnitude unitsPerOne (15 - e) = r ∧
      ∀ text, text = (Double.finite x).general ↔
        ∃ s : Spelling, s.text = text ∧ s.Greedy [] ∧ s.negative = x.negative ∧
          s.decimal = r * 10 ^ (e - 15) ∧ s.HasStyle e := by
  obtain ⟨r, e, hdigits, hr, hsignificant, hplaces, hlimit, htext⟩ :=
    exists_significant ((Finite.value_eq_zero_iff x).not.mp hx)
  have hlast : ((precision : Nat) : Int) - 1 = 15 := rfl
  have hround := isHalfEven_roundAt x.magnitude unitsPerOne_pos (15 - e)
  have hgreedy := Spelling.greedy_ofSignificant x.negative r e
  have hsign := Spelling.negative_ofSignificant x.negative r e
  have hdecimal := Spelling.decimal_ofSignificant x.negative hr hlimit
  have hstyle := Spelling.hasStyle_ofSignificant x.negative e hr
  rw [hlast] at hsignificant hplaces hdecimal
  rw [← Finite.abs_value, hplaces] at hround
  refine ⟨r, e, hr, hsignificant, hround, hdigits, hplaces, fun text => ⟨?_, ?_⟩⟩
  · rintro rfl
    exact ⟨_, htext, hgreedy, hsign, hdecimal, hstyle⟩
  · rintro ⟨s, rfl, hsgreedy, hssign, hsdecimal, hsstyle⟩
    rw [← htext, hsstyle.unique hstyle hsgreedy hgreedy (hssign.trans hsign.symm)
      (hsdecimal.trans hdecimal.symm)]

/-- The number next to a tenth of a millionth is rounded up to the next power of ten. -/
theorem general_eq_iff_carry :
    let x : Double.Finite := ⟨false, 0x3E7AD7F29ABCAF48, by decide⟩
    x.value ≠ 0 ∧ (Double.finite x).general = "1e-07".toList ∧
      Decimal.leadingExponent x.magnitude Double.unitsPerOne = -8 ∧
      ∃ (r : Nat) (e : Int), (10 ^ 15 ≤ r ∧ r < 10 ^ 16) ∧
        IsSignificant 16 |x.value| (r * 10 ^ (e - 15)) ∧
        ∃ s : Spelling, s.text = "1e-07".toList ∧ s.Greedy [] ∧ s.negative = false ∧
          s.decimal = r * 10 ^ (e - 15) ∧ s.HasStyle e := by
  intro x
  have hx : x.value ≠ 0 := (Double.Finite.value_eq_zero_iff x).not.mpr (by decide)
  have htext : (Double.finite x).general = "1e-07".toList := by decide +kernel
  obtain ⟨r, e, hr, hsignificant, -, -, -, hiff⟩ := general_eq_iff hx
  exact ⟨hx, htext, by decide +kernel, r, e, hr, hsignificant, (hiff _).mp htext.symm⟩

end Literal

end Interchange
