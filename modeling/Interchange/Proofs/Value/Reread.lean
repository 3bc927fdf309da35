/-
# Values that are read back from their text

An exact integer is written with all its digits, so reading its text gives the same value back: the
narrow kind if it has 32 bits, else the wide one.  Nothing behind the text changes that, unless it
goes on with the literal.

Another number is written in general notation.  What is read back is a number again if the digits
that are written show a fraction or an exponent.  Digits that round to an integer without either are
those of an integer, and are read as one.

* `ofNumeral_text_ofInteger`: integers of 64 bits are read back, in a text and in a buffer;
* `ofNumeral_text_ofNumber`: which numbers are read back as numbers.
-/
import Interchange.Value.Text
import Interchange.Proofs.Numeral.Integers
import Interchange.Proofs.Numeral.Precision
import Interchange.Proofs.Value.Number

namespace Interchange
namespace Value

open Literal (EndsInteger Spelling)

variable {H : Type}

/-! ## 1. Exact integers -/

/-- The text of an integer is its decimal, of either width. -/
theorem text_ofInteger (n : Int64) : (ofInteger n : Value H).text = Decimal.signed n.toInt := by
  unfold ofInteger
  split
  · next h => exact congrArg Decimal.signed (Int32.toInt_ofInt_of_le h.1 h.2)
  · rfl

/-- A literal that is written as an integer of 64 bits is that integer. -/
theorem ofLiteral_of_isInteger {s : Spelling} (h : s.IsInteger) {n : Int64}
    (hn : s.integer = n.toInt) : (ofLiteral s.literal : Value H) = ofInteger n := by
  unfold Spelling.IsInteger at h
  unfold Spelling.literal ofInteger
  rw [if_pos h, hn]
  split
  · rfl
  · rw [if_pos ⟨n.le_toInt, n.toInt_lt⟩, Int64.ofInt_toInt]
    rfl

/-- The text of an integer is read back, whatever ends it. -/
theorem ofNumeral_signed_append (n : Int64) {rest : List Char} (h : EndsInteger rest) :
    (ofNumeral (Decimal.signed n.toInt ++ rest) : Value H) = ofInteger n := by
  rw [ofNumeral, Literal.read_signed_append n.toInt h]
  exact ofLiteral_of_isInteger ⟨rfl, rfl⟩ (Spelling.integer_ofInt n.toInt)

theorem ofNumeral_text_exact (n : Int64) :
    (ofNumeral (ofInteger n : Value H).text : Value H) = ofInteger n := by
  have halone := ofNumeral_signed_append (H := H) n Literal.endsInteger_nil
  rwa [List.append_nil, ← text_ofInteger (H := H)] at halone

/-- The text of an integer is read back from a buffer, if the window reaches to its end. -/
theorem ofNumeralBytes_signed_append (n : Int64) {rest : List UInt8} {length : Option Nat}
    (hlength : ∀ k ∈ length, (Decimal.signed n.toInt).length ≤ k)
    (h : EndsInteger (Literal.windowText rest
      (length.map (· - (Decimal.signed n.toInt).length)))) :
    (ofNumeralBytes (Buffer.encode (Decimal.signed n.toInt) ++ rest) length : Value H) =
      ofInteger n := by
  have hwindow := Literal.windowText_encode_append (Spelling.isPlain_signed n.toInt) rest hlength
  rw [← ofNumeral_signed_append n h, ← hwindow]
  rfl

/-- **An integer of 64 bits is read back from its text with its value and its kind**: from the text
alone, from a buffer where a zero byte ends it, and wherever what follows does not go on with the
literal. -/
theorem ofNumeral_text_ofInteger (n : Int64) :
    let v : Value H := ofInteger n
    v.toInteger? = some n ∧
      v.kind = (if -0x80000000 ≤ n.toInt ∧ n.toInt < 0x80000000 then .integer else .long) ∧
      ofNumeral v.text = v ∧
      (∀ after, ofNumeralBytes (Buffer.encode v.text ++ 0 :: after) none = v) ∧
      (∀ rest, EndsInteger rest → ofNumeral (v.text ++ rest) = v) ∧
      ∀ rest length, EndsInteger (rest.map fun b => Char.ofNat b.toNat) →
        (∀ k ∈ length, v.text.length ≤ k) →
        ofNumeralBytes (Buffer.encode v.text ++ rest) length = v := by
  intro v
  have htext : v.text = Decimal.signed n.toInt := text_ofInteger n
  refine ⟨toInteger?_ofInteger n, kind_ofInteger n, ofNumeral_text_exact n, ?_⟩
  rw [htext]
  refine ⟨?_, ?_, ?_⟩
  · intro after
    refine ofNumeralBytes_signed_append n (fun k hk => nomatch hk) ?_
    exact Literal.endsInteger_nil
  · intro rest hrest
    exact ofNumeral_signed_append n hrest
  · intro rest length hrest hlength
    exact ofNumeralBytes_signed_append n hlength (hrest.window _)

/-- The least integer of 64 bits, in a text that goes on. -/
theorem ofNumeral_text_ofInteger_least :
    (ofInteger (-2 ^ 63) : Value Unit).text = "-9223372036854775808".toList ∧
      EndsInteger "+1".toList ∧
      ofNumeral ("-9223372036854775808".toList ++ "+1".toList) =
        (.long (-2 ^ 63) : Value Unit) := by
  have htext : (ofInteger (-2 ^ 63) : Value Unit).text = "-9223372036854775808".toList := by
    decide +kernel
  have hwide : (ofInteger (-2 ^ 63) : Value Unit) = .long (-2 ^ 63) := by decide +kernel
  have hrest : EndsInteger "+1".toList := by
    intro c hc
    obtain rfl : '+' = c := Option.some.inj hc
    decide
  obtain ⟨-, -, -, -, hread, -⟩ := ofNumeral_text_ofInteger (H := Unit) (-2 ^ 63)
  have hlong := hread "+1".toList hrest
  rw [htext, hwide] at hlong
  exact ⟨htext, hrest, hlong⟩

/-! ## 2. Script numbers -/

section General

variable {s : Spelling} {x : ℚ}

/-- General notation that is an integer of no more than its digits is that integer. -/
theorem ofLiteral_of_isGeneral (hs : s.IsGeneral x) {m : Nat} (hm : s.decimal = m)
    (hsmall : m < 10 ^ 16) : (ofLiteral s.literal : Value H) =
      ofInteger (Int64.ofInt (if s.negative then -m else m)) := by
  have hwritten : s.IsInteger := hs.isInteger_iff.mpr ⟨m, hm, hsmall⟩
  have hvalue : Decimal.value s.whole = m := by
    rw [Spelling.decimal_of_isInteger hwritten] at hm
    exact_mod_cast hm
  refine ofLiteral_of_isInteger hwritten ?_
  rw [Spelling.integer, hvalue, Int64.toInt_ofInt_of_le] <;> split <;> omega

theorem kind_ofLiteral_of_isGeneral (hs : s.IsGeneral x) :
    (ofLiteral s.literal : Value H).kind = .number ↔
      ¬∃ m : Nat, s.decimal = m ∧ m < 10 ^ 16 := by
  constructor
  · rintro hkind ⟨m, hm, hsmall⟩
    rw [ofLiteral_of_isGeneral hs hm hsmall] at hkind
    exact kind_ofInteger_ne_number _ hkind
  · intro hno
    have hwritten : ¬(s.fractionDigits = [] ∧ s.power = 0) := hs.isInteger_iff.not.mpr hno
    rw [Spelling.literal, if_neg hwritten]
    rfl

end General

/-- **Which numbers are read back as numbers.**  An integer is read back as it is.  Another number
is written rounded to sixteen significant digits: if that is an integer of no more digits, this
integer is read, with the sign of the number; else a number is. -/
theorem ofNumeral_text_ofNumber (x : Double.Finite) :
    let v : Value H := ofNumber (.finite x)
    let w : Value H := ofNumeral v.text
    (v.kind = .integer ∨ v.kind = .long → w = v) ∧
      (v.kind = .number → ∃ q, Decimal.IsSignificant 16 |x.value| q ∧
        (w.kind = .number ↔ ¬∃ m : Nat, q = m ∧ m < 10 ^ 16) ∧
        ∀ m : Nat, q = m → m < 10 ^ 16 →
          w = ofInteger (Int64.ofInt (if x.negative then -m else m))) := by
  intro v w
  rcases ofNumber_cases (H := H) (.finite x) with ⟨n, -, hinteger⟩ | ⟨hwide, hnumber⟩
  · have hv : v = ofInteger n := hinteger
    have hw : w = v := by
      change ofNumeral v.text = v
      rw [hv]
      exact ofNumeral_text_exact n
    refine ⟨fun _ => hw, fun hkind => ?_⟩
    rw [hv] at hkind
    exact absurd hkind (kind_ofInteger_ne_number n)
  · have hv : v = .number (.finite x) := hnumber
    refine ⟨fun hkind => ?_, fun _ => ?_⟩
    · rw [hv] at hkind
      rcases hkind with h | h <;> cases h
    · have hcode : x.code ≠ 0 := fun hzero =>
        hwide 0 (Double.toInt?_of_code_eq_zero hzero) (by decide)
      obtain ⟨s, htext, hsign, hs⟩ := Literal.exists_isGeneral hcode
      have hw : w = ofLiteral s.literal := by
        have hvtext : v.text = s.text := by
          rw [hv]
          exact htext.symm
        rw [← Literal.read_of_greedy hs.greedy, ← hvtext]
        rfl
      rw [hw, ← hsign]
      exact ⟨s.decimal, hs.significant, kind_ofLiteral_of_isGeneral hs,
        fun m hm hsmall => ofLiteral_of_isGeneral hs hm hsmall⟩

/-- The number after one is a number, and its sixteen digits are those of the integer one. -/
theorem kind_ofNumeral_text_next_one :
    let x : Double.Finite := ⟨false, 0x3FF0000000000001, by decide⟩
    let v : Value Unit := ofNumber (.finite x)
    |x.value| < 1797693134862315 * 10 ^ 293 ∧ v.kind = .number ∧ v.text = "1".toList ∧
      ¬(ofNumeral v.text : Value Unit).kind = .number := by
  decide +kernel

end Value
end Interchange
