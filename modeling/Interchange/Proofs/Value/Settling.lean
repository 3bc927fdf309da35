/-
# Texts that are read and written again

The text of a number, read back and written once more, is the same text, unless its digits are a
power of ten.  What is read is at least as near to these digits as the number was, and what is
nearer is rounded to the same digits.  Only below a power of ten do digits stand closer, and the
number nearest to the power can lie too far below it: then it has digits of its own, and its text is
another one.  That text is then settled.

* `general_eq_general_iff`: which numbers have the same text;
* `text_ofNumeral_general`: which texts are written again.
-/
import Interchange.Proofs.Decimal.Reround
import Interchange.Proofs.Double.Order
import Interchange.Proofs.Numeral.Style
import Interchange.Proofs.Value.Reread

namespace Interchange
namespace Literal

open Decimal Double

/-! ## 1. Numbers of the same text -/

/-- **Two numbers have the same text exactly when they have one sign and the same significant
digits.** -/
theorem general_eq_general_iff {x y : Finite} (hx : x.code ≠ 0) (hy : y.code ≠ 0) :
    (Double.finite x).general = (Double.finite y).general ↔ x.negative = y.negative ∧
      ∃ q, IsSignificant precision |x.value| q ∧ IsSignificant precision |y.value| q := by
  constructor
  · intro h
    obtain ⟨s, hs, hssign, hsgeneral⟩ := exists_isGeneral hx
    obtain ⟨t, ht, htsign, htgeneral⟩ := exists_isGeneral hy
    have hscan := Spelling.scan_eq_iff.mpr ⟨(List.append_nil s.text).symm, hsgeneral.greedy⟩
    have hscan' := Spelling.scan_eq_iff.mpr ⟨(List.append_nil t.text).symm, htgeneral.greedy⟩
    rw [hs, h, ← ht, hscan'] at hscan
    obtain rfl : t = s := (Prod.mk.inj hscan).1
    exact ⟨hssign.symm.trans htsign, t.decimal, hsgeneral.significant, htgeneral.significant⟩
  · rintro ⟨hsign, q, hxq, hyq⟩
    obtain ⟨r, e, -, hr, hxr, -, -, htext⟩ := exists_significant hx
    obtain ⟨r', e', -, hr', hyr, -, -, htext'⟩ := exists_significant hy
    have hsame : (r : ℚ) * 10 ^ (e - ((precision : Int) - 1)) =
        r' * 10 ^ (e' - ((precision : Int) - 1)) := (hxr.unique hxq).trans (hyq.unique hyr)
    obtain rfl : e = e' := (isLeading_digits hr e).unique (hsame ▸ isLeading_digits hr' e')
    rw [mul_left_inj' (ten_zpow_pos _).ne', Nat.cast_inj] at hsame
    rw [← htext, ← htext', hsign, hsame]

namespace Spelling

/-! ## 2. Integers among them -/

/-- An integer in general notation is written with all its digits. -/
theorem HasStyle.text_of_isInteger {s : Spelling} {e : Int} (h : s.HasStyle e) (hs : s.IsInteger)
    (he : e.natAbs ≤ exponentLimit) (hpos : 0 < s.decimal) : s.text = Decimal.signed s.integer := by
  have hfraction : s.fraction = none := by
    rw [h.fraction_eq, hs.1]
    rfl
  have hstyle : -4 ≤ e ∧ e < 16 := by
    by_contra hnot
    have hpower := power_of_exponent (h.scientific hnot).1 he
    rw [hs.2] at hpower
    omega
  obtain ⟨hexponent, hwhole⟩ := h.plain hstyle
  rw [decimal_of_isInteger hs, Nat.cast_pos] at hpos
  rw [text, hfraction, hexponent, hwhole, integer, Decimal.signed]
  cases s.negative <;> simp [hpos.ne', minusText, fractionText, exponentText]

end Spelling

/-! ## 3. What is read from a text -/

section Reading

variable {x : Finite}

theorem exists_hasStyle (h : x.code ≠ 0) : ∃ (s : Spelling) (e : Int),
    s.text = (Double.finite x).general ∧ s.negative = x.negative ∧ s.IsGeneral |x.value| ∧
      s.HasStyle e ∧ e.natAbs ≤ Spelling.exponentLimit := by
  obtain ⟨r, e, -, hr, hsignificant, -, hlimit, htext⟩ := exists_significant h
  exact ⟨_, e, htext, Spelling.negative_ofSignificant x.negative r e,
    Spelling.isGeneral_ofSignificant x.negative hr hlimit hsignificant,
    Spelling.hasStyle_ofSignificant x.negative e hr, hlimit⟩

/-- The digits of a number are positive, and nearer to it than to zero. -/
theorem significant_near {x q : ℚ} (h : IsSignificant precision x q) :
    0 < q ∧ |q - x| < q := by
  obtain ⟨e, -, he, -⟩ := id h
  have hpos := ten_zpow_pos e
  have hlow := (h.bounds (by decide) he).1
  have hnear := h.abs_sub_le he
  have hunit : (10 : ℚ) ^ (e - ((precision : Int) - 1)) ≤ 10 ^ e :=
    ten_zpow_le_iff.mpr (by have : (precision : Int) = 16 := rfl; omega)
  constructor <;> linarith

/-- The digits of a number below the largest one of sixteen digits do not overflow. -/
theorem significant_lt_overflowLimit (hx : x.code ≠ 0)
    (hlimit : |x.value| < 1797693134862315 * 10 ^ 293) {q : ℚ}
    (h : IsSignificant precision |x.value| q) : q < overflowLimit := by
  obtain ⟨e, -, he, -⟩ := id h
  have hnear := (abs_le.mp (h.abs_sub_le he)).2
  have hlast : (10 : ℚ) ^ (e - ((precision : Int) - 1)) ≤ 10 ^ (293 : Int) := by
    obtain ⟨-, hhigh⟩ := leading_bounds hx he
    have hprecision : (precision : Int) = 16 := rfl
    exact ten_zpow_le_iff.mpr (by omega)
  have := add_lt_overflowLimit hlimit
  linarith

/-- **The nearest number is as near to the digits as the number that they are rounded from.** -/
theorem abs_sub_le_of_isNearest {y : Finite} {q : ℚ}
    (h : IsNearest x.negative (signed x.negative q) (.finite y)) :
    |(q - |y.value|)| ≤ |(q - |x.value|)| := by
  have hnear := (h.2.2 x).1
  have hsign : y.negative = x.negative := h.1
  rw [← signed_abs_value x, ← signed_abs_value y, hsign, signed_sub, signed_sub, abs_signed,
    abs_signed] at hnear
  rwa [abs_sub_comm q, abs_sub_comm q]

end Reading

end Literal

namespace Value

open Literal Decimal Double

variable {H : Type}

/-! ## 4. Texts of values -/

section Texts

variable {s : Spelling} {x : ℚ}

theorem text_ofLiteral_of_isGeneral (hs : s.IsGeneral x) (h : s.IsInteger) :
    (ofLiteral s.literal : Value H).text = Decimal.signed s.integer := by
  obtain ⟨m, hm, hsmall⟩ := hs.isInteger_iff.mp h
  have hvalue : value s.whole < 10 ^ 16 := by
    rw [Spelling.decimal_of_isInteger h, Nat.cast_inj] at hm
    exact hm.trans_lt hsmall
  have hinteger : (Int64.ofInt s.integer).toInt = s.integer := by
    rw [Spelling.integer, Int64.toInt_ofInt_of_le] <;> split <;> omega
  rw [ofLiteral_of_isInteger h hinteger.symm, text_ofInteger, hinteger]

end Texts

/-- **What the text of a number is read as**, written again: the same text if it is that of an
integer, else the text of the number nearest to the digits. -/
theorem exists_reread {x : Finite} (hx : x.code ≠ 0)
    (hlimit : |x.value| < 1797693134862315 * 10 ^ 293) :
    ∃ q, IsSignificant precision |x.value| q ∧
      ((∃ m : Nat, q = m ∧ m < 10 ^ 16 ∧
        (ofNumeral (Double.finite x).general : Value H).text = (Double.finite x).general) ∨
      ∃ y : Finite, y.code ≠ 0 ∧ IsNearest x.negative (signed x.negative q) (.finite y) ∧
        (ofNumeral (Double.finite x).general : Value H).text = (Double.finite y).general) := by
  obtain ⟨s, e, htext, hsign, hs, hstyle, he⟩ := exists_hasStyle hx
  obtain ⟨hpos, hnear⟩ := significant_near hs.significant
  have hread : (ofNumeral s.text : Value H) = ofLiteral s.literal := by
    rw [ofNumeral, read_of_greedy hs.greedy]
  refine ⟨s.decimal, hs.significant, ?_⟩
  rw [← htext, hread]
  by_cases hinteger : s.IsInteger
  · obtain ⟨m, hm, hsmall⟩ := hs.isInteger_iff.mp hinteger
    refine .inl ⟨m, hm, hsmall, ?_⟩
    rw [text_ofLiteral_of_isGeneral hs hinteger, hstyle.text_of_isInteger hinteger he hpos]
  · have hliteral : s.literal = .number s.number := if_neg hinteger
    have hnumber := s.number_isNearest
    rw [hsign] at hnumber
    have hlt := significant_lt_overflowLimit hx hlimit hs.significant
    rw [hliteral]
    cases hv : s.number with
    | nan payload =>
      rw [hv] at hnumber
      exact hnumber.elim
    | infinity negative =>
      rw [hv] at hnumber
      have hfar := hnumber.2
      rw [abs_signed, abs_of_pos hpos] at hfar
      exact absurd hlt (not_lt.mpr hfar)
    | finite y =>
      rw [hv] at hnumber
      refine .inr ⟨y, fun hzero => ?_, hnumber, rfl⟩
      -- zero is farther from the digits than the number that they are rounded from
      have hback := abs_sub_le_of_isNearest hnumber
      rw [(Finite.value_eq_zero_iff y).mpr hzero, abs_zero, sub_zero, abs_of_pos hpos] at hback
      exact absurd hback (not_le.mpr hnear)

/-! ## 5. Powers of ten -/

/-- The number nearest to a power of ten lies below it, by more than half a unit of the sixteenth
digit there.  It is written with digits of its own. -/
def MissesPower (negative : Bool) (k : Int) : Prop :=
  ∃ y : Finite, IsNearest negative (signed negative (10 ^ k)) (.finite y) ∧
    |y.value| < 10 ^ k - 10 ^ (k - 16) / 2

/-- Powers of ten that are integers of sixteen digits are numbers. -/
theorem not_missesPower {negative : Bool} {k : Int} {m : Nat} (hm : (10 : ℚ) ^ k = m)
    (hsmall : m < 10 ^ 16) : ¬MissesPower negative k := by
  rintro ⟨y, hnear, hbelow⟩
  have hk : (10 : ℚ) ^ k < 10 ^ (16 : Int) := by
    rw [hm]
    exact_mod_cast hsmall
  have hle : m ≤ 10 ^ 15 := by
    have hexp := ten_zpow_lt_iff.mp hk
    have hpow : (10 : ℚ) ^ k ≤ 10 ^ (15 : Int) := ten_zpow_le_iff.mpr (by omega)
    rw [hm] at hpow
    exact_mod_cast hpow
  obtain ⟨z, hz⟩ := Fits.exists_value (n := if negative then -m else m)
    (.of_natAbs_le (by split <;> omega))
  have hexact : z.value = signed negative (10 ^ k) := by
    rw [hz, hm, Double.signed]
    split <;> push_cast <;> rfl
  have hdist := (hnear.2.2 z).1
  rw [hexact, sub_self, abs_zero, abs_nonpos_iff, sub_eq_zero] at hdist
  rw [hdist, abs_signed, abs_of_pos (ten_zpow_pos k)] at hbelow
  have := ten_zpow_pos (k - 16)
  linarith

section Settling

variable {x : Finite}

/-- **Which texts are written again.**  Digits are read as the number nearest to them, which is at
least as near as the number that they were rounded from, and so has the same digits.  This can fail
below a power of ten alone, where numbers of sixteen digits lie ten times as close as above it. -/
theorem text_ofNumeral_eq_iff (hx : x.code ≠ 0)
    (hlimit : |x.value| < 1797693134862315 * 10 ^ 293) :
    (ofNumeral (Double.finite x).general : Value H).text = (Double.finite x).general ↔
      ¬∃ k : Int, IsSignificant 16 |x.value| (10 ^ k) ∧ MissesPower x.negative k := by
  obtain ⟨q, hq, ⟨m, hm, hsmall, htext⟩ | ⟨y, hy, hnear, htext⟩⟩ :=
    exists_reread (H := H) hx hlimit
  · refine iff_of_true htext ?_
    rintro ⟨k, hk, hmiss⟩
    exact not_missesPower ((hk.unique hq).trans hm) hsmall hmiss
  · have hmisses : (∃ k : Int, IsSignificant 16 |x.value| (10 ^ k) ∧ MissesPower x.negative k) ↔
        ∃ k : Int, q = 10 ^ k ∧ |y.value| < 10 ^ k - 10 ^ (k - precision) / 2 := by
      constructor
      · rintro ⟨k, hk, y', hnear', hbelow⟩
        obtain rfl := hq.unique hk
        obtain rfl := Double.finite.inj (hnear'.unique hnear)
        exact ⟨k, rfl, hbelow⟩
      · rintro ⟨k, rfl, hbelow⟩
        exact ⟨k, hq, y, hnear, hbelow⟩
    rw [htext, general_eq_general_iff hy hx, hmisses,
      ← hq.nearer_iff (by decide) (abs_sub_le_of_isNearest hnear)]
    constructor
    · rintro ⟨-, r, hyr, hxr⟩
      exact hq.unique hxr ▸ hyr
    · intro hyq
      exact ⟨hnear.1, q, hyq, hq⟩

/-- A text that is not written again is followed by one that is. -/
theorem text_ofNumeral_settled (hx : x.code ≠ 0)
    (hlimit : |x.value| < 1797693134862315 * 10 ^ 293) {k : Int}
    (hk : IsSignificant 16 |x.value| (10 ^ k)) (hmiss : MissesPower x.negative k) :
    let v : Value H := ofNumeral (Double.finite x).general
    (ofNumeral v.text : Value H).text = v.text := by
  intro v
  obtain ⟨y, hnear, hbelow⟩ := id hmiss
  obtain ⟨q, hq, ⟨m, hm, hsmall, -⟩ | ⟨y', hy, hnear', htext⟩⟩ :=
    exists_reread (H := H) hx hlimit
  · exact absurd hmiss (not_missesPower ((hk.unique hq).trans hm) hsmall)
  · obtain rfl := hk.unique hq
    obtain rfl := Double.finite.inj (hnear.unique hnear')
    obtain ⟨habove, hother⟩ :=
      hk.not_power_of_nearer (by decide) (abs_sub_le_of_isNearest hnear) hbelow
    have hless : |y.value| < 1797693134862315 * 10 ^ 293 :=
      (hbelow.trans (sub_lt_self _ (half_pos (ten_zpow_pos _)))).trans (habove.trans hlimit)
    have hv : v.text = (Double.finite y).general := htext
    rw [hv]
    exact (text_ofNumeral_eq_iff hy hless).mpr fun ⟨j, hj, _⟩ => hother j hj

/-- **The text of a number is written again after it is read**, of whatever kind it is read as,
unless its digits are a power of ten and the nearest number misses that power.  Then another text is
written, and from then on it stays. -/
theorem text_ofNumeral_general (hx : x.value ≠ 0)
    (hlimit : |x.value| < 1797693134862315 * 10 ^ 293) :
    let text := (Double.finite x).general
    let v : Value H := ofNumeral text
    (v.text = text ↔
        ¬∃ k : Int, IsSignificant 16 |x.value| (10 ^ k) ∧ MissesPower x.negative k) ∧
      (ofNumeral v.text : Value H).text = v.text := by
  intro text v
  have hcode := (Finite.value_eq_zero_iff x).not.mp hx
  have hiff := text_ofNumeral_eq_iff (H := H) hcode hlimit
  refine ⟨hiff, ?_⟩
  by_cases hsame : v.text = text
  · rw [hsame]
    exact hsame
  · obtain ⟨k, hk, hmiss⟩ := not_not.mp (hiff.not.mp hsame)
    exact text_ofNumeral_settled hcode hlimit hk hmiss

/-- The number after 10 ^ 23, with a minus sign.  The power itself lies half-way between two numbers
and is read as the lower one, 8388608 away; the digits of that one stand 10 ^ 7 apart. -/
theorem text_ofNumeral_general_missed :
    let x : Finite := ⟨true, 0x44B52D02C7E14AF7, by decide⟩
    x.value ≠ 0 ∧ |x.value| < 1797693134862315 * 10 ^ 293 ∧
      (Double.finite x).general = "-1e+23".toList ∧
      (ofNumeral "-1e+23".toList : Value Unit).text = "-9.999999999999999e+22".toList ∧
      (ofNumeral "-9.999999999999999e+22".toList : Value Unit).text =
        "-9.999999999999999e+22".toList ∧
      ∃ k : Int, IsSignificant 16 |x.value| (10 ^ k) ∧ MissesPower true k := by
  intro x
  have hx : x.value ≠ 0 := (Finite.value_eq_zero_iff x).not.mpr (by decide)
  have hlimit : |x.value| < 1797693134862315 * 10 ^ 293 := by decide +kernel
  have htext : (Double.finite x).general = "-1e+23".toList := by decide +kernel
  have hagain :
      (ofNumeral "-1e+23".toList : Value Unit).text = "-9.999999999999999e+22".toList := by
    decide +kernel
  obtain ⟨hiff, hsettled⟩ := text_ofNumeral_general (H := Unit) hx hlimit
  rw [htext, hagain] at hiff hsettled
  exact ⟨hx, hlimit, htext, hagain, hsettled, not_not.mp (hiff.not.mp (by decide))⟩

/-- The same number without the sign: its text is not written again. -/
theorem text_ofNumeral_general_changes :
    let x : Finite := ⟨false, 0x44B52D02C7E14AF7, by decide⟩
    x.value ≠ 0 ∧ |x.value| < 1797693134862315 * 10 ^ 293 ∧
      ¬(ofNumeral (Double.finite x).general : Value Unit).text = (Double.finite x).general := by
  decide +kernel

end Settling

end Value
end Interchange
