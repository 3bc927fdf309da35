/-
# Integers as literals

The decimal text of an integer is a literal.  It is the whole literal wherever no digit, point or
exponent letter follows, and it denotes that integer.

In a buffer such a text takes one byte for each character, and none of them is zero.  A window that
reaches to the end of the text therefore begins with it, and behind the text the window goes on as
the buffer does, or not at all.

* `read_signed_append`: the literal that an integer's text is, whatever ends it;
* `windowText_encode_append`: the text in a buffer.
-/
import Interchange.Proofs.Numeral.Denotation
import Interchange.Proofs.Text.Bytes

namespace Interchange

namespace Literal

open Buffer (encode IsPlain)

/-! ## 1. Plain text in a buffer -/

/-- **A window that reaches to the end of a plain text begins with it**, and goes on as a window of
what follows. -/
theorem windowText_encode_append {text : List Char} (h : IsPlain text) (rest : List UInt8)
    {length : Option Nat} (hlength : ∀ k ∈ length, text.length ≤ k) :
    windowText (encode text ++ rest) length =
      text ++ windowText rest (length.map (· - text.length)) := by
  have hwindow : Buffer.window (encode text ++ rest) length =
      encode text ++ Buffer.window rest (length.map (· - text.length)) := by
    cases length with
    | none => exact List.takeWhile_append_of_pos fun b hb => Buffer.ne_zero_of_mem_encode h hb
    | some k =>
      have hlong : (encode text).length = text.length := by
        rw [Buffer.encode_of_isPlain h, List.length_map]
      have hk : text.length ≤ k := hlength k rfl
      rw [Buffer.window, List.take_append, hlong, List.take_of_length_le (by omega)]
      rfl
  rw [windowText, hwindow, List.map_append, Buffer.map_char_encode h]
  rfl

theorem head?_windowText {buffer : List UInt8} {length : Option Nat} {c : Char}
    (h : c ∈ (windowText buffer length).head?) :
    c ∈ (buffer.map fun b => Char.ofNat b.toNat).head? := by
  cases buffer with
  | nil => cases length <;> simp [windowText, Buffer.window] at h
  | cons b rest =>
    cases length with
    | none =>
      by_cases hb : (b != 0) = true
      · simpa [windowText, Buffer.window, hb] using h
      · simp [windowText, Buffer.window, hb] at h
    | some k => cases k <;> simp_all [windowText, Buffer.window]

/-! ## 2. The literal of an integer -/

/-- What follows does not go on with the literal of an integer: it begins with no digit, point or
exponent letter. -/
def EndsInteger (rest : List Char) : Prop :=
  ∀ c ∈ rest.head?, c.isDigit = false ∧ c ≠ '.' ∧ c ≠ 'e' ∧ c ≠ 'E'

theorem endsInteger_nil : EndsInteger [] := by
  intro c hc
  cases hc

theorem EndsInteger.window {rest : List UInt8}
    (h : EndsInteger (rest.map fun b => Char.ofNat b.toNat)) (length : Option Nat) :
    EndsInteger (windowText rest length) := fun c hc => h c (head?_windowText hc)

namespace Spelling

def ofInt (n : Int) : Spelling := ⟨n < 0, Decimal.digits n.natAbs, none, none⟩

theorem text_ofInt (n : Int) : (ofInt n).text = Decimal.signed n := by
  unfold Decimal.signed
  by_cases h : n < 0 <;> simp [ofInt, text, h, minusText, fractionText, exponentText]

theorem integer_ofInt (n : Int) : (ofInt n).integer = n := by
  unfold integer ofInt
  simp only [Decimal.value_digits, decide_eq_true_eq]
  split <;> omega

/-- **The text of an integer is the whole literal**, up to what ends it. -/
theorem greedy_ofInt (n : Int) {rest : List Char} (h : EndsInteger rest) :
    (ofInt n).Greedy rest := by
  obtain ⟨first, more, hdigits⟩ := List.exists_cons_of_ne_nil (Decimal.digits_ne_nil n.natAbs)
  refine ⟨fun hsign hminus => ?_, ⟨fun c hc => Decimal.isDigit_of_mem_digits hc, ?_⟩, ?_, ?_⟩
  · -- without a sign the text begins with a digit
    have hfirst : first.isDigit = true :=
      Decimal.isDigit_of_mem_digits (n := n.natAbs) (hdigits ▸ List.mem_cons_self)
    change decide (n < 0) = false at hsign
    simp only [text, ofInt, hsign, hdigits, minusText, List.nil_append, List.cons_append,
      List.head?_cons, Option.mem_some_iff] at hminus
    exact ne_minus_of_isDigit hfirst hminus
  · intro c hc
    exact (h c hc).1
  · exact .absent fun hpoint => (h '.' hpoint).2.1 rfl
  · exact .absent (fun he => (h 'e' he).2.2.1 rfl) (fun hE => (h 'E' hE).2.2.2 rfl)

theorem isPlain_signed (n : Int) : IsPlain (Decimal.signed n) := by
  have hdigit : ∀ c ∈ Decimal.digits n.natAbs, 0 < c.toNat ∧ c.toNat < 0x80 := by
    intro c hc
    have h := toNat_of_isDigit (Decimal.isDigit_of_mem_digits hc)
    omega
  intro c hc
  unfold Decimal.signed at hc
  split at hc
  · rcases List.mem_cons.mp hc with rfl | hc
    · decide
    · exact hdigit c hc
  · exact hdigit c hc

end Spelling

/-- **The text of an integer is read as its own literal**, whatever ends it. -/
theorem read_signed_append (n : Int) {rest : List Char} (h : EndsInteger rest) :
    read (Decimal.signed n ++ rest) = (Spelling.ofInt n).literal := by
  have hscan : Spelling.scan (Decimal.signed n ++ rest) = (Spelling.ofInt n, rest) :=
    Spelling.scan_eq_iff.mpr ⟨by rw [Spelling.text_ofInt], Spelling.greedy_ofInt n h⟩
  rw [read, hscan]

end Literal
end Interchange
