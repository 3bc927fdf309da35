/-
# Numbers that cross to native code

A script number is narrowed to the least kind of integer that holds it exactly.  Widened again it is
the same datum bit by bit, a not-a-number with its payload included; only a zero loses its sign.  So
two numbers are narrowed to equal values exactly when they are equal.

* `ofNumber_cases`: which numbers are narrowed;
* `ofNumber_eq_ofInteger_iff_truncate`: truncating and comparing back narrows the same ones;
* `toDouble?_ofNumber`: every number is found again from its narrowed value;
* `equals_ofNumber`: narrowed values compare like the numbers;
* `ofNumber_ofBits`: what each bit pattern becomes.
-/
import Interchange.Value.Basic
import Interchange.Proofs.Double.Truncation

namespace Interchange

namespace Value

variable {H : Type}

/-! ## 1. Integers of either width -/

theorem kind_ofInteger (n : Int64) : (ofInteger n : Value H).kind =
    if -0x80000000 ≤ n.toInt ∧ n.toInt < 0x80000000 then .integer else .long := by
  unfold ofInteger
  split <;> rfl

theorem kind_ofInteger_ne_number (n : Int64) : (ofInteger n : Value H).kind ≠ .number := by
  rw [kind_ofInteger]
  split <;> decide

theorem toInteger?_ofInteger (n : Int64) : (ofInteger n : Value H).toInteger? = some n := by
  unfold ofInteger
  split
  · next h =>
    have hn : (Int32.ofInt n.toInt).toInt64.toInt = n.toInt := by
      rw [Int32.toInt_toInt64, Int32.toInt_ofInt_of_le h.1 h.2]
    rw [toInteger?, Int64.toInt_inj.mp hn]
  · rfl

theorem ofInteger_eq_integer_iff {n : Int64} {k : Int32} :
    (ofInteger n : Value H) = .integer k ↔ n.toInt = k.toInt := by
  unfold ofInteger
  constructor
  · intro h
    split at h
    · next hsmall =>
      rw [← Value.integer.inj h, Int32.toInt_ofInt_of_le hsmall.1 hsmall.2]
    · cases h
  · intro h
    rw [h, if_pos ⟨k.le_toInt, k.toInt_lt⟩, Int32.ofInt_toInt]

theorem ofInteger_eq_long_iff {n k : Int64} : (ofInteger n : Value H) = .long k ↔
    n = k ∧ ¬(-0x80000000 ≤ k.toInt ∧ k.toInt < 0x80000000) := by
  unfold ofInteger
  constructor
  · intro h
    split at h
    · cases h
    · next hwide =>
      obtain rfl := Value.long.inj h
      exact ⟨rfl, hwide⟩
  · rintro ⟨rfl, hwide⟩
    exact if_neg hwide

theorem ofInteger_ne_number (n : Int64) (x : Double) : (ofInteger n : Value H) ≠ .number x := by
  intro h
  exact kind_ofInteger_ne_number n (congrArg kind h)

/-! ## 2. Which numbers are narrowed -/

theorem ofNumber_of_toInt? {x : Double} {n : Int64} (h : x.toInt? = some n.toInt) :
    (ofNumber x : Value H) = ofInteger n := by
  unfold ofNumber
  rw [h]
  dsimp only
  rw [if_pos ⟨n.le_toInt, n.toInt_lt⟩, Int64.ofInt_toInt]

theorem ofNumber_ofInt (n : Int32) : (ofNumber (Double.ofInt n.toInt) : Value H) = .integer n := by
  have hlow := n.le_toInt
  have hhigh := n.toInt_lt
  have hn : (Double.ofInt n.toInt).toInt? = some n.toInt64.toInt := by
    rw [Int32.toInt_toInt64]
    exact Double.toInt?_ofInt (.of_natAbs_le (by omega))
  rw [ofNumber_of_toInt? hn, ofInteger, Int32.toInt_toInt64, if_pos ⟨hlow, hhigh⟩,
    Int32.ofInt_toInt]

theorem ofNumber_of_wide {x : Double}
    (h : ∀ n, x.toInt? = some n → ¬(-0x8000000000000000 ≤ n ∧ n < 0x8000000000000000)) :
    (ofNumber x : Value H) = .number x := by
  unfold ofNumber
  split
  · next n hn => exact if_neg (h n hn)
  · rfl

/-- **A script number becomes the integer that it is, or stays as it is.**  The source truncates the
number and compares back; here the integer is the exact value, and what is left over are fractions,
what is not finite and what is beyond 64 bits. -/
theorem ofNumber_cases (x : Double) :
    (∃ n : Int64, x.toInt? = some n.toInt ∧ (ofNumber x : Value H) = ofInteger n) ∨
      (∀ n, x.toInt? = some n → ¬(-0x8000000000000000 ≤ n ∧ n < 0x8000000000000000)) ∧
        (ofNumber x : Value H) = .number x := by
  by_cases hwide : ∀ n, x.toInt? = some n → ¬(-0x8000000000000000 ≤ n ∧ n < 0x8000000000000000)
  · exact .inr ⟨hwide, ofNumber_of_wide hwide⟩
  · simp only [not_forall, not_not] at hwide
    obtain ⟨n, hn, hlow, hhigh⟩ := hwide
    have hlong : x.toInt? = some (Int64.ofInt n).toInt := by
      rw [Int64.toInt_ofInt_of_le hlow hhigh, hn]
    exact .inl ⟨Int64.ofInt n, hlong, ofNumber_of_toInt? hlong⟩

section Cases

variable {x y : Double}

/-- **A number is narrowed to the integer that it is.** -/
theorem ofNumber_eq_ofInteger_iff {n : Int64} :
    (ofNumber x : Value H) = ofInteger n ↔ x.toInt? = some n.toInt := by
  refine ⟨fun h => ?_, ofNumber_of_toInt?⟩
  rcases ofNumber_cases (H := H) x with ⟨m, hm, hinteger⟩ | ⟨-, hnumber⟩
  · have hsame := toInteger?_ofInteger (H := H) m
    rw [← hinteger, h, toInteger?_ofInteger] at hsame
    rw [hm, Option.some.inj hsame]
  · exact absurd (h.symm.trans hnumber) (ofInteger_ne_number n x)

/-- **Truncating a number and comparing back narrows the same numbers.** -/
theorem ofNumber_eq_ofInteger_iff_truncate {n : Int64} : (ofNumber x : Value H) = ofInteger n ↔
    x.truncate? = some n.toInt ∧ (Double.ofInt n.toInt).equals x = true := by
  rw [ofNumber_eq_ofInteger_iff]
  constructor
  · intro h
    have hcut := Double.truncate?_of_toInt? h
    exact ⟨hcut, (Double.equals_ofInt_truncate_iff hcut).mpr h⟩
  · rintro ⟨hcut, hequal⟩
    exact (Double.equals_ofInt_truncate_iff hcut).mp hequal

theorem ofNumber_eq_integer_iff {k : Int32} :
    (ofNumber x : Value H) = .integer k ↔ x.toInt? = some k.toInt := by
  have hwide : k.toInt64.toInt = k.toInt := Int32.toInt_toInt64 k
  rw [← hwide, ← ofNumber_eq_ofInteger_iff (H := H), ofInteger_eq_integer_iff.mpr hwide]

theorem ofNumber_eq_long_iff {k : Int64} : (ofNumber x : Value H) = .long k ↔
    x.toInt? = some k.toInt ∧ ¬(-0x80000000 ≤ k.toInt ∧ k.toInt < 0x80000000) := by
  constructor
  · intro h
    rcases ofNumber_cases (H := H) x with ⟨n, hn, hinteger⟩ | ⟨-, hnumber⟩
    · obtain ⟨rfl, hwide⟩ := ofInteger_eq_long_iff.mp (hinteger.symm.trans h)
      exact ⟨hn, hwide⟩
    · cases hnumber.symm.trans h
  · rintro ⟨hk, hwide⟩
    rw [ofNumber_of_toInt? hk]
    exact ofInteger_eq_long_iff.mpr ⟨rfl, hwide⟩

/-- **All other numbers stay as they are.** -/
theorem ofNumber_eq_number_iff : (ofNumber x : Value H) = .number y ↔ y = x ∧
    ∀ n, x.toInt? = some n → ¬(-0x8000000000000000 ≤ n ∧ n < 0x8000000000000000) := by
  constructor
  · intro h
    rcases ofNumber_cases (H := H) x with ⟨n, -, hinteger⟩ | ⟨hwide, hnumber⟩
    · exact absurd (hinteger.symm.trans h) (ofInteger_ne_number n y)
    · exact ⟨Value.number.inj (h.symm.trans hnumber), hwide⟩
  · rintro ⟨rfl, hwide⟩
    exact ofNumber_of_wide hwide

end Cases

/-! ## 3. Numbers that come back -/

/-- **Every script number is found again from its narrowed value**, but for the sign of zero: an
integer that is the value of a number widens to that number, whatever its size, for it needs no
rounding. -/
theorem toDouble?_ofNumber (x : Double) :
    (ofNumber x : Value H).toDouble? = some x.dropZeroSign := by
  rcases ofNumber_cases (H := H) x with ⟨n, hn, hinteger⟩ | ⟨hwide, hnumber⟩
  · rw [hinteger, toDouble_ofInteger, Double.ofInt_of_toInt? hn]
  · rw [hnumber, toDouble?, Double.dropZeroSign, if_neg]
    rintro rfl
    exact hwide 0 (Double.toInt?_of_code_eq_zero rfl) (by decide)

/-! ## 4. Equal numbers -/

section Equal

variable {x y : Double}

theorem ofNumber_dropZeroSign (x : Double) :
    (ofNumber x.dropZeroSign : Value H) = ofNumber x := by
  unfold Double.dropZeroSign
  split
  · next hzero =>
    have hinteger (negative : Bool) :
        (ofNumber (Double.zero negative) : Value H) = ofInteger 0 :=
      ofNumber_of_toInt? (Double.toInt?_of_code_eq_zero rfl)
    rw [hzero, hinteger, hinteger]
  · rfl

/-- **Numbers become the same value exactly when they are equal.**  The two zeros are equal and
become the same integer.  What is not a number is left out, since it keeps its bits and yet equals
nothing, not even itself. -/
theorem ofNumber_eq_iff (hx : x.isNaN = false) :
    (ofNumber x : Value H) = ofNumber y ↔ x.equals y = true := by
  constructor
  · intro h
    have hback := congrArg toDouble? h
    rw [toDouble?_ofNumber, toDouble?_ofNumber] at hback
    refine Double.equals_of_ordinal_eq ?_ hx
    rw [← Double.ordinal_dropZeroSign, Option.some.inj hback, Double.ordinal_dropZeroSign]
  · intro h
    rw [← ofNumber_dropZeroSign x, Double.dropZeroSign_eq_of_equals h, ofNumber_dropZeroSign]

theorem isNaN_of_equals (h : x.equals y = true) : x.isNaN = false := by
  cases x with
  | nan _ => simp [Double.equals, Double.ordinal] at h
  | infinity _ | finite _ => rfl

theorem equals_ofInteger_iff {same : H → H → Bool} {v : Value H} {n : Int64} :
    (v.equals same (ofInteger n) = true ↔ v = ofInteger n) ∧
      ((ofInteger n).equals same v = true ↔ v = ofInteger n) := by
  unfold ofInteger
  split <;> cases v <;> simp [equals, eq_comm]

/-- **Narrowed values are equal exactly when the numbers are**; a not-a-number equals nothing. -/
theorem equals_ofNumber (same : H → H → Bool) (x y : Double) :
    (ofNumber x).equals same (ofNumber y) = x.equals y := by
  rw [Bool.eq_iff_iff]
  constructor
  · intro h
    rcases ofNumber_cases (H := H) y with ⟨n, hn, hy⟩ | ⟨-, hy⟩
    · rw [hy, equals_ofInteger_iff.1, ofNumber_eq_ofInteger_iff] at h
      exact Double.equals_of_toInt? h hn
    · rcases ofNumber_cases (H := H) x with ⟨m, -, hx⟩ | ⟨-, hx⟩
      · rw [hx, equals_ofInteger_iff.2] at h
        exact absurd (h.symm.trans hy) (ofInteger_ne_number m y)
      · rw [hx, hy] at h
        exact h
  · intro h
    have hx := isNaN_of_equals h
    rw [← (ofNumber_eq_iff hx).mpr h]
    rcases ofNumber_cases (H := H) x with ⟨n, -, hinteger⟩ | ⟨-, hnumber⟩
    · rw [hinteger]
      exact equals_ofInteger_iff.1.mpr rfl
    · rw [hnumber]
      exact (Double.equals_self_iff x).mpr hx

end Equal

/-! ## 5. All bit patterns -/

/-- **What each bit pattern becomes.**  A number that is an integer of 64 bits becomes that integer,
narrow if it has 32 bits; truncating the number and comparing back finds it.  Every other pattern
stays as it is, bit by bit.  As a number the result equals what was narrowed, an integer that is a
number becomes the same value on either way, and two numbers become equal values, or the same one,
exactly when they are equal. -/
theorem ofNumber_ofBits {bits : UInt64} {x : Double} (hx : Double.ofBits bits = x) :
    let v : Value H := ofNumber x
    (∀ k : Int32, v = .integer k ↔ x.value? = some (k.toInt : ℚ)) ∧
      (∀ k : Int64, v = .long k ↔
        x.value? = some (k.toInt : ℚ) ∧ ¬(-0x80000000 ≤ k.toInt ∧ k.toInt < 0x80000000)) ∧
      (∀ y, v = .number y ↔ y.toBits = bits ∧
        ¬∃ n : Int, x.value? = some (n : ℚ) ∧ -0x8000000000000000 ≤ n ∧ n < 0x8000000000000000) ∧
      (∀ k : Int64, v = ofInteger k ↔
        x.truncate? = some k.toInt ∧ (Double.ofInt k.toInt).equals x = true) ∧
      (∃ y, v.toDouble? = some y ∧ y.equals x = !x.isNaN) ∧
      (∀ k : Int64, x.value? = some (k.toInt : ℚ) →
        (ofNumber (Double.ofInt k.toInt) : Value H) = ofInteger k) ∧
      ∀ other, let y := Double.ofBits other
        (∀ same, v.equals same (ofNumber y) = x.equals y) ∧
          (x.isNaN = false → (v = ofNumber y ↔ x.equals y = true)) := by
  intro v
  have hvalue {n : Int} : x.value? = some (n : ℚ) ↔ x.toInt? = some n :=
    Double.toInt?_eq_some_iff_value?.symm
  have hbits (y : Double) : y.toBits = bits ↔ y = x := by
    rw [← hx]
    constructor
    · rintro rfl
      exact (Double.ofBits_toBits y).symm
    · rintro rfl
      exact Double.toBits_ofBits bits
  simp only [hvalue, hbits, not_exists, not_and]
  refine ⟨?_, ?_, ?_, ?_, ?_, ?_, ?_⟩
  · exact fun k => ofNumber_eq_integer_iff
  · intro k
    rw [← not_and]
    exact ofNumber_eq_long_iff
  · intro y
    simpa only [not_and] using ofNumber_eq_number_iff (H := H) (x := x) (y := y)
  · exact fun k => ofNumber_eq_ofInteger_iff_truncate
  · exact ⟨x.dropZeroSign, toDouble?_ofNumber x, Double.equals_dropZeroSign x⟩
  · intro k hk
    refine ofNumber_of_toInt? ?_
    rw [Double.ofInt_of_toInt? hk, Double.toInt?_dropZeroSign, hk]
  · exact fun other => ⟨fun same => equals_ofNumber same x _, ofNumber_eq_iff⟩

/-- The greatest integer of 64 bits is rounded to 2 ^ 63, which is none and stays a number; its
opposite is one. -/
theorem ofNumber_ofBits_limit :
    let x := Double.ofBits 0x43E0000000000000
    let y := Double.ofBits 0xC3E0000000000000
    Double.ofInt (2 ^ 63 - 1) = x ∧ (ofNumber x : Value Unit) = .number x ∧
      y.value? = some ((-2 ^ 63 : Int64).toInt : ℚ) ∧ (ofNumber y : Value Unit) = .long (-2 ^ 63) ∧
      (ofNumber (Double.ofInt (-2 ^ 63 : Int64).toInt) : Value Unit) = ofInteger (-2 ^ 63) ∧
      x.isNaN = false ∧ ¬(ofNumber x : Value Unit) = ofNumber y := by
  intro x y
  have hround : Double.ofInt (2 ^ 63 - 1) = x := by decide +kernel
  have hvalue : x.value? = some (2 ^ 63) := by decide +kernel
  have hleast : y.value? = some ((-2 ^ 63 : Int64).toInt : ℚ) := by decide +kernel
  have hpresent : x.isNaN = false := by decide +kernel
  have hx : Double.ofBits 0x43E0000000000000 = x := rfl
  have hy : Double.ofBits 0xC3E0000000000000 = y := rfl
  obtain ⟨-, -, hnumber, -, -, -, hequal⟩ := ofNumber_ofBits (H := Unit) hx
  obtain ⟨-, hlong, -, -, -, hback, -⟩ := ofNumber_ofBits (H := Unit) hy
  have hstays : (ofNumber x : Value Unit) = .number x := by
    refine (hnumber x).mpr ⟨Double.toBits_ofBits _, ?_⟩
    rintro ⟨n, hn, -, hhigh⟩
    have hn' : (n : ℚ) = (2 ^ 63 : Int) := by
      rw [← Option.some.inj (hvalue.symm.trans hn)]
      norm_num
    rw [Int.cast_injective hn'] at hhigh
    exact absurd hhigh (by decide)
  have hwide : (ofNumber y : Value Unit) = .long (-2 ^ 63) :=
    (hlong _).mpr ⟨hleast, by decide +kernel⟩
  refine ⟨hround, hstays, hleast, hwide, hback _ hleast, hpresent, ?_⟩
  rw [(hequal 0xC3E0000000000000).2 hpresent]
  decide +kernel

end Value
end Interchange
