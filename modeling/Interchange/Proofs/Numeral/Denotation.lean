/-
# What a numeric literal denotes

Reading a window of a buffer takes the one greedy literal that its text begins with, and looks at
nothing else.  A literal without a fraction whose exponent is zero is the exact integer when it has
32 or 64 bits; every other literal is the nearest number to the exact decimal, with the sign that is
written.

* `number_isNearest`: the number of a literal is its decimal, rounded once;
* `readBytes_greedy`: what is read from a buffer.
-/
import Mathlib.Algebra.Order.Field.Power
import Mathlib.Tactic.NormNum
import Interchange.Proofs.Double.Nearest
import Interchange.Proofs.Numeral.Greedy

namespace Interchange

/-! ## 1. Moving the decimal point -/

namespace Decimal

theorem cast_powerOfTen (k : Nat) : (powerOfTen k : ℚ) = 10 ^ k := by
  have h : powerOfTen k = 10 ^ k := rfl
  rw [h, Nat.cast_pow, Nat.cast_ofNat]

theorem powerOfTen_pos (k : Nat) : 0 < powerOfTen k := Nat.pow_pos (by decide)

/-- **Moving the decimal point multiplies by a power of ten.** -/
theorem shift_eq_mul (num : Nat) {den : Nat} (hden : 0 < den) (power : Int) :
    0 < (shift num den power).2 ∧
      ((shift num den power).1 : ℚ) / (shift num den power).2 = (num : ℚ) / den * 10 ^ power := by
  cases power with
  | ofNat p =>
    refine ⟨hden, ?_⟩
    rw [Int.ofNat_eq_natCast, zpow_natCast]
    simp only [shift, Nat.cast_mul, cast_powerOfTen]
    rw [mul_div_right_comm]
  | negSucc p =>
    refine ⟨Nat.mul_pos hden (powerOfTen_pos _), ?_⟩
    rw [zpow_negSucc]
    simp only [shift, Nat.cast_mul, cast_powerOfTen]
    rw [← div_div, ← div_eq_mul_inv]

end Decimal

namespace Literal

/-! ## 2. The exact value -/

namespace Spelling

/-- The decimal that a literal spells, without its sign: the digits around the point, times the
power of ten. -/
def decimal (s : Spelling) : ℚ :=
  (Decimal.value s.whole +
    (Decimal.value s.fractionDigits : ℚ) / 10 ^ s.fractionDigits.length) * 10 ^ s.power

/-- The digits as one number, with the point moved back behind them. -/
theorem decimal_eq (s : Spelling) :
    s.decimal = (Decimal.value (s.whole ++ s.fractionDigits) : ℚ) *
      10 ^ (s.power - s.fractionDigits.length) := by
  have hten : (10 : ℚ) ≠ 0 := by norm_num
  rw [decimal, Decimal.value_append, zpow_sub₀ hten, zpow_natCast]
  push_cast
  rw [Decimal.cast_powerOfTen]
  field_simp

/-- **The number of a literal is its decimal, rounded once**; a zero keeps the sign that is
written. -/
theorem number_isNearest (s : Spelling) :
    Double.IsNearest s.negative (Double.signed s.negative s.decimal) s.number := by
  obtain ⟨hden, hratio⟩ := Decimal.shift_eq_mul (Decimal.value (s.whole ++ s.fractionDigits))
    Nat.one_pos (s.power - s.fractionDigits.length)
  have hnear := Double.ofRatio_isNearest s.negative
    (Decimal.shift (Decimal.value (s.whole ++ s.fractionDigits)) 1
      (s.power - s.fractionDigits.length)).1 hden
  rw [hratio, Nat.cast_one, div_one, ← decimal_eq] at hnear
  exact hnear

/-! ## 3. The classified literal -/

/-- The literal is written as an integer, without a fraction and with a zero exponent. -/
def IsInteger (s : Spelling) : Prop := s.fractionDigits = [] ∧ s.power = 0

/-- What a literal denotes: an integer when it is written as one of 32 bits, a long one when it is
written as one of 64 bits but not of 32, both exactly; else the number nearest to its decimal. -/
def Denotes (s : Spelling) : Literal → Prop
  | .integer n => s.IsInteger ∧ n.toInt = s.integer
  | .long n => s.IsInteger ∧ n.toInt = s.integer ∧
      ¬(-0x80000000 ≤ s.integer ∧ s.integer < 0x80000000)
  | .number v =>
      ¬(s.IsInteger ∧ -0x8000000000000000 ≤ s.integer ∧ s.integer < 0x8000000000000000) ∧
      v.isNaN = false ∧ Double.IsNearest s.negative (Double.signed s.negative s.decimal) v

theorem denotes_number {s : Spelling}
    (h : ¬(s.IsInteger ∧ -0x8000000000000000 ≤ s.integer ∧ s.integer < 0x8000000000000000)) :
    s.Denotes (.number s.number) := by
  have hnear := s.number_isNearest
  refine ⟨h, ?_, hnear⟩
  cases hv : s.number with
  | nan payload =>
    rw [hv] at hnear
    exact hnear.elim
  | infinity | finite => rfl

/-- **A literal is classified as what it denotes.**  The integers are read off the digits; the
number is the nearest by `number_isNearest`. -/
theorem denotes_literal (s : Spelling) : s.Denotes s.literal := by
  unfold literal
  split
  · next h =>
    split
    · next hsmall => exact ⟨h, Int32.toInt_ofInt_of_le hsmall.1 hsmall.2⟩
    · next hsmall =>
      split
      · next hlong => exact ⟨h, Int64.toInt_ofInt_of_le hlong.1 hlong.2, hsmall⟩
      · next hlong => exact denotes_number fun hall => hlong hall.2
  · next h => exact denotes_number fun hall => h hall.1

/-- **A literal denotes only one thing**: the kinds exclude each other, and of numbers the nearest
with a given sign is one. -/
theorem Denotes.unique {s : Spelling} {a b : Literal} (ha : s.Denotes a) (hb : s.Denotes b) :
    a = b := by
  have h32 (n : Int32) : -0x80000000 ≤ n.toInt ∧ n.toInt < 0x80000000 :=
    ⟨Int32.le_toInt n, Int32.toInt_lt n⟩
  have h64 (n : Int64) : -0x8000000000000000 ≤ n.toInt ∧ n.toInt < 0x8000000000000000 :=
    ⟨Int64.le_toInt n, Int64.toInt_lt n⟩
  match a, b, ha, hb with
  | .integer m, .integer n, ha, hb => rw [Int32.toInt_inj.mp (ha.2.trans hb.2.symm)]
  | .long m, .long n, ha, hb => rw [Int64.toInt_inj.mp (ha.2.1.trans hb.2.1.symm)]
  | .number v, .number w, ha, hb => rw [ha.2.2.unique hb.2.2]
  | .integer m, .long n, ha, hb => exact absurd (ha.2 ▸ h32 m) hb.2.2
  | .long m, .integer n, ha, hb => exact absurd (hb.2 ▸ h32 n) ha.2.2
  | .integer m, .number w, ha, hb =>
    have := h32 m
    have heq := ha.2
    exact absurd ⟨ha.1, by omega, by omega⟩ hb.1
  | .number v, .integer n, ha, hb =>
    have := h32 n
    have heq := hb.2
    exact absurd ⟨hb.1, by omega, by omega⟩ ha.1
  | .long m, .number w, ha, hb => exact absurd ⟨ha.1, ha.2.1 ▸ h64 m⟩ hb.1
  | .number v, .long n, ha, hb => exact absurd ⟨hb.1, hb.2.1 ▸ h64 n⟩ ha.1

end Spelling

/-! ## 4. Reading a buffer -/

/-- The text that a reader of a buffer may look at, one character for each byte.  Bytes beyond ASCII
become characters that end every literal, as the bytes do. -/
def windowText (buffer : List UInt8) (length : Option Nat) : List Char :=
  (Buffer.window buffer length).map (fun b => Char.ofNat b.toNat)

/-- **What is read from a buffer.**  The text of the window begins with one greedy literal, and with
no other.  The result is what this literal denotes, and nothing else is.  Any other buffer whose
window begins with the same literal is read as the same, whatever follows the literal and the
window. -/
theorem readBytes_greedy (buffer : List UInt8) (length : Option Nat) :
    ∃ (s : Spelling) (rest : List Char),
      (windowText buffer length = s.text ++ rest ∧ s.Greedy rest) ∧
      (∀ s' rest', windowText buffer length = s'.text ++ rest' → s'.Greedy rest' →
        s' = s ∧ rest' = rest) ∧
      s.Denotes (readBytes buffer length) ∧
      (∀ literal, s.Denotes literal → literal = readBytes buffer length) ∧
      readBytes buffer length = read s.text ∧
      ∀ buffer' length' rest', windowText buffer' length' = s.text ++ rest' → s.Greedy rest' →
        readBytes buffer' length' = readBytes buffer length := by
  rcases hscan : Spelling.scan (windowText buffer length) with ⟨s, rest⟩
  have hread : readBytes buffer length = s.literal := by
    show (Spelling.scan (windowText buffer length)).1.literal = s.literal
    rw [hscan]
  obtain ⟨htext, hgreedy⟩ := Spelling.scan_eq_iff.mp hscan
  refine ⟨s, rest, ⟨htext, hgreedy⟩, fun s' rest' htext' hgreedy' => ?_, ?_, ?_, ?_, ?_⟩
  · have hscan' := Spelling.scan_eq_iff.mpr ⟨htext', hgreedy'⟩
    rw [hscan] at hscan'
    exact ⟨(Prod.mk.inj hscan').1.symm, (Prod.mk.inj hscan').2.symm⟩
  · rw [hread]
    exact s.denotes_literal
  · intro literal hliteral
    rw [hread]
    exact hliteral.unique s.denotes_literal
  · have halone := Spelling.scan_eq_iff.mpr ⟨(List.append_nil s.text).symm, hgreedy.alone⟩
    rw [hread, read, halone]
  · intro buffer' length' rest' htext' hgreedy'
    show (Spelling.scan (windowText buffer' length')).1.literal = _
    rw [Spelling.scan_eq_iff.mpr ⟨htext', hgreedy'⟩, hread]

/-- A sign alone, marks without digits, an integer beyond 64 bits, and what follows a literal. -/
example : read "-".toList = .integer 0 ∧ read "-.e+".toList = .integer 0 ∧
    read "-9223372036854775808".toList = .long (-9223372036854775808) ∧
    read "9223372036854775808.e".toList = .number (Double.ofInt (2 ^ 63)) ∧
    readBytes [0x37, 0x65, 0x2D, 0x00, 0x31] none = .integer 7 := by decide +kernel

end Literal
end Interchange
