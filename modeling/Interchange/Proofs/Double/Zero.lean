/-
# The two zeros

Zero is the one number with two data, and they are told apart only by their sign.  An integer is
found again from its value, but for that sign; and a sum is a minus zero only if its first term is
one already.

* `ofInt_of_toInt?`: an integer is found again from its value;
* `equals_of_toInt?`, `toInt?_eq_of_equals`: data that are the same integer are equal;
* `eq_zero_true_of_add`, `eq_zero_true_of_sub`: where a minus zero comes from.
-/
import Interchange.Proofs.Double.Exact

namespace Interchange

namespace Double

/-! ## 1. Numbers without the sign of zero -/

/-- The same number; a zero without its sign.  It is all that narrowing to an integer and widening
again changes. -/
def dropZeroSign (x : Double) : Double := if x = zero true then zero false else x

/-- **A number that is an integer is found again from it**, but for the sign of zero. -/
theorem ofInt_of_toInt? {x : Double} {n : Int} (h : x.toInt? = some n) :
    ofInt n = x.dropZeroSign := by
  obtain ⟨f, rfl, hf⟩ := toInt?_eq_some_iff.mp h
  rw [ofInt, ← hf]
  by_cases hcode : f.code = 0
  · have hzero : ofUnits f.units = zero false := by
      rw [(Finite.units_eq_zero_iff f).mpr hcode]
      decide +kernel
    obtain ⟨negative, code, hlt⟩ := f
    obtain rfl : code = 0 := hcode
    rw [hzero, dropZeroSign]
    cases negative
    · rw [if_neg (by simp [zero])]
      rfl
    · exact (if_pos rfl).symm
  · have hne : Double.finite f ≠ zero true := by
      intro heq
      exact hcode (congrArg Finite.code (Double.finite.inj heq))
    rw [ofUnits_units hcode, dropZeroSign, if_neg hne]

theorem eq_ofInt_of_toInt? {x : Double} {n : Int} (h : x.toInt? = some n) (hn : n ≠ 0) :
    x = ofInt n := by
  rw [ofInt_of_toInt? h, dropZeroSign, if_neg]
  rintro rfl
  exact hn (Option.some.inj h).symm

theorem toInt?_dropZeroSign (x : Double) : x.dropZeroSign.toInt? = x.toInt? := by
  unfold dropZeroSign
  split
  · next h =>
    rw [h]
    decide +kernel
  · rfl

/-- Dropping the sign of a zero gives an equal number; a not-a-number equals nothing. -/
theorem equals_dropZeroSign (x : Double) : x.dropZeroSign.equals x = !x.isNaN := by
  unfold dropZeroSign
  split
  · next h =>
    rw [h]
    decide
  · cases x <;> simp [equals, ordinal, isNaN]

theorem equals_of_ordinal_eq {x y : Double} (h : x.ordinal = y.ordinal) (hx : x.isNaN = false) :
    x.equals y = true := by
  rw [← equals_self_iff] at hx
  unfold equals at hx ⊢
  rwa [← h]

theorem ordinal_dropZeroSign (x : Double) : x.dropZeroSign.ordinal = x.ordinal := by
  unfold dropZeroSign
  split
  · next h =>
    rw [h]
    decide
  · rfl

/-- **Data that are the same integer are equal numbers.** -/
theorem equals_of_toInt? {x y : Double} {n : Int} (hx : x.toInt? = some n)
    (hy : y.toInt? = some n) : x.equals y = true := by
  have hsame : x.dropZeroSign = y.dropZeroSign :=
    (ofInt_of_toInt? hx).symm.trans (ofInt_of_toInt? hy)
  refine equals_of_ordinal_eq ?_ ?_
  · rw [← ordinal_dropZeroSign x, hsame, ordinal_dropZeroSign]
  · obtain ⟨f, rfl, -⟩ := toInt?_eq_some_iff.mp hx
    rfl

/-- **Equal numbers are the same datum**, but for the sign of zero.  A not-a-number has no equal,
itself included. -/
theorem dropZeroSign_eq_of_equals {x y : Double} (h : x.equals y = true) :
    x.dropZeroSign = y.dropZeroSign := by
  match x, y with
  | .nan _, _ => simp [equals, ordinal] at h
  | .infinity _, .nan _ | .finite _, .nan _ => simp [equals, ordinal] at h
  | .infinity s, .infinity t => cases s <;> cases t <;> first | rfl | simp [equals, ordinal] at h
  | .infinity s, .finite y =>
    have hcode := y.code_lt
    simp only [equals, ordinal, decide_eq_true_eq] at h
    split at h <;> split at h <;> omega
  | .finite x, .infinity t =>
    have hcode := x.code_lt
    simp only [equals, ordinal, decide_eq_true_eq] at h
    split at h <;> split at h <;> omega
  | .finite ⟨s, c, hc⟩, .finite ⟨t, d, hd⟩ =>
    have hsame : c = d ∧ (s = t ∨ c = 0) := by
      cases s <;> cases t <;> simp [equals, ordinal] at h ⊢ <;> omega
    obtain ⟨rfl, rfl | rfl⟩ := hsame
    · rfl
    · change (zero s).dropZeroSign = (zero t).dropZeroSign
      cases s <;> cases t <;> rfl

theorem toInt?_eq_of_equals {x y : Double} (h : x.equals y = true) : x.toInt? = y.toInt? := by
  rw [← toInt?_dropZeroSign x, dropZeroSign_eq_of_equals h, toInt?_dropZeroSign]

/-! ## 2. Where a minus zero comes from -/

/-- **A sum is a minus zero only if its first term is one.**  So a minus zero does not come up on
the way from an instant that is none. -/
theorem eq_zero_true_of_add {v w : Double} {m n : Int} (hv : v.toInt? = some m)
    (hw : w.toInt? = some n) (hfits : Fits (m + n)) (h : v + w = zero true) : v = zero true := by
  have hsum := toInt?_add hv hw hfits
  obtain ⟨x, rfl, hx⟩ := toInt?_eq_some_iff.mp hv
  obtain ⟨y, rfl, hy⟩ := toInt?_eq_some_iff.mp hw
  have hnull : m + n = 0 := by
    rw [h] at hsum
    exact (Option.some.inj hsum).symm
  have hunits : x.units + y.units = 0 := by
    rw [hx, hy, ← Int.add_mul, hnull, Int.zero_mul]
  -- a sum that cancels is negative only if both terms are, so both are zeros
  have hsigns : (x.negative && y.negative) = true := by
    change (if x.units + y.units = 0 then zero (x.negative && y.negative)
      else ofUnits (x.units + y.units)) = zero true at h
    rw [if_pos hunits] at h
    exact congrArg isNegative h
  obtain ⟨hneg, hneg'⟩ := Bool.and_eq_true_iff.mp hsigns
  have hcode : x.code = 0 := by
    rw [← Finite.units_eq_zero_iff]
    unfold Finite.units at hunits ⊢
    rw [if_pos hneg] at hunits ⊢
    rw [if_pos hneg'] at hunits
    omega
  obtain ⟨negative, code, hlt⟩ := x
  obtain rfl : code = 0 := hcode
  obtain rfl : negative = true := hneg
  rfl

theorem eq_zero_true_of_sub {v w : Double} {m n : Int} (hv : v.toInt? = some m)
    (hw : w.toInt? = some n) (hfits : Fits (m - n)) (h : v - w = zero true) : v = zero true := by
  rw [sub_eq_add_neg] at h
  exact eq_zero_true_of_add hv (toInt?_neg hw) (Int.sub_eq_add_neg ▸ hfits) h

end Double
end Interchange
