/-
# The kind that a literal has

The shape of a literal asks for a kind: digits alone are an integer, if they fit one, and a literal
with digits behind a point or an exponent is a number.  Of a fraction it counts that there is one.
Of an exponent the reader keeps only the power of ten, which is zero before an exponent is read too,
so that a written power of zero is none to the test that follows: integers with such an exponent are
integers to it, and these are the only literals that do not have the kind of their shape.

* `power_eq_zero_iff`: the exponents that are taken for none;
* `kind_ofNumeralBytes`: the kind of what is read from a buffer.
-/
import Interchange.Proofs.Numeral.Denotation
import Interchange.Value.Basic

namespace Interchange

namespace Decimal

theorem value_eq_zero_iff {digits : List Char} (h : ∀ c ∈ digits, c.isDigit = true) :
    value digits = 0 ↔ ∀ c ∈ digits, c = '0' := by
  induction digits with
  | nil => simp
  | cons c rest ih =>
    have hc := toNat_of_isDigit (h c List.mem_cons_self)
    have hpos := powerOfTen_pos rest.length
    have hzero : c.toNat - 48 = 0 ↔ c = '0' := by
      rw [← Char.toNat_inj, show '0'.toNat = 48 from rfl]
      omega
    rw [value_cons, Nat.add_eq_zero_iff, Nat.mul_eq_zero, or_iff_right hpos.ne', hzero,
      ih fun d hd => h d (List.mem_cons_of_mem c hd), List.forall_mem_cons]

end Decimal

namespace Literal

/-! ## 1. The shape of a literal -/

namespace Spelling

def exponentDigits (s : Spelling) : List Char := (s.exponent.map (·.digits)).getD []

/-- The whole part, with its sign, is an integer of 32 bits. -/
def IsNarrow (s : Spelling) : Prop := -0x80000000 ≤ s.integer ∧ s.integer < 0x80000000

/-- The whole part, with its sign, is an integer of 64 bits. -/
def IsWide (s : Spelling) : Prop := -0x8000000000000000 ≤ s.integer ∧ s.integer < 0x8000000000000000

instance (s : Spelling) : Decidable s.IsNarrow := inferInstanceAs (Decidable (_ ∧ _))

instance (s : Spelling) : Decidable s.IsWide := inferInstanceAs (Decidable (_ ∧ _))

/-- The kind of an integer that is written in so many digits, if it fits one. -/
def integerKind (s : Spelling) : Kind :=
  if s.IsNarrow then .integer else if s.IsWide then .long else .number

theorem integerKind_eq_integer_iff (s : Spelling) : s.integerKind = .integer ↔ s.IsNarrow := by
  unfold integerKind
  split
  · next h => simp [h]
  · next h => split <;> simp [h]

theorem integerKind_eq_long_iff (s : Spelling) :
    s.integerKind = .long ↔ s.IsWide ∧ ¬s.IsNarrow := by
  unfold integerKind
  split
  · next h => simp [h]
  · next h => split <;> simp_all

theorem IsNarrow.isWide {s : Spelling} (h : s.IsNarrow) : s.IsWide := by
  obtain ⟨hlow, hhigh⟩ := h
  constructor <;> omega

theorem integerKind_eq_number_iff (s : Spelling) : s.integerKind = .number ↔ ¬s.IsWide := by
  unfold integerKind
  split
  · next h => simp [h.isWide]
  · split <;> simp_all

/-- The kind that the shape asks for: that of an integer if there is no digit of a fraction or an
exponent, else a number. -/
def shapeKind (s : Spelling) : Kind :=
  if s.fractionDigits = [] ∧ s.exponentDigits = [] then s.integerKind else .number

/-- There is an exponent, and it is zero: the one shape that is not classified as it looks. -/
def HasZeroExponent (s : Spelling) : Prop :=
  s.exponentDigits ≠ [] ∧ ∀ c ∈ s.exponentDigits, c = '0'

theorem isDigit_exponentDigits {s : Spelling} {rest : List Char} (h : s.Greedy rest) :
    ∀ c ∈ s.exponentDigits, c.isDigit = true := by
  have hexponent := h.exponent
  unfold exponentDigits
  cases hs : s.exponent with
  | none => simp
  | some e =>
    rw [hs] at hexponent
    cases hexponent with
    | present _ _ hrun => exact hrun.1

/-- **An exponent is taken for none exactly when its digits are zeros.** -/
theorem power_eq_zero_iff {s : Spelling} {rest : List Char} (h : s.Greedy rest) :
    s.power = 0 ↔ ∀ c ∈ s.exponentDigits, c = '0' := by
  rw [← Decimal.value_eq_zero_iff (isDigit_exponentDigits h)]
  unfold power exponentDigits
  cases s.exponent with
  | none => simp
  | some e =>
    have hlimit : exponentLimit = 100000 := rfl
    simp only [Option.map_some, Option.getD_some]
    split <;> omega

end Spelling

end Literal

/-! ## 2. The kind of a literal -/

namespace Value

open Literal Spelling

variable {H : Type}

/-- A literal that is written as an integer has the kind of one that fits; others are numbers. -/
theorem kind_ofLiteral (s : Spelling) : (ofLiteral s.literal : Value H).kind =
    if s.fractionDigits = [] ∧ s.power = 0 then s.integerKind else .number := by
  unfold Spelling.literal integerKind
  split
  · split
    · next hnarrow => exact (if_pos hnarrow).symm
    · next hnarrow =>
      refine Eq.trans ?_ (if_neg hnarrow).symm
      split
      · next hwide => exact (if_pos hwide).symm
      · next hwide => exact (if_neg hwide).symm
  · rfl

section Greedy

variable {s : Spelling} {rest : List Char}

/-- A literal with no digit of a fraction and none but zeros in an exponent has the kind of an
integer. -/
theorem kind_ofLiteral_of_whole (h : s.Greedy rest)
    (hwhole : s.fractionDigits = [] ∧ ∀ c ∈ s.exponentDigits, c = '0') :
    (ofLiteral s.literal : Value H).kind = s.integerKind := by
  rw [← power_eq_zero_iff h] at hwhole
  rw [kind_ofLiteral, if_pos hwhole]

theorem kind_ofLiteral_of_not_whole (h : s.Greedy rest)
    (hwhole : ¬(s.fractionDigits = [] ∧ ∀ c ∈ s.exponentDigits, c = '0')) :
    (ofLiteral s.literal : Value H).kind = .number := by
  rw [← power_eq_zero_iff h] at hwhole
  rw [kind_ofLiteral, if_neg hwhole]

/-- **The literals that do not have the kind of their shape** are the integers of 64 bits that are
written with an exponent of zero. -/
theorem kind_eq_shapeKind_iff (h : s.Greedy rest) :
    (ofLiteral s.literal : Value H).kind = s.shapeKind ↔
      ¬(s.fractionDigits = [] ∧ s.HasZeroExponent ∧ s.IsWide) := by
  by_cases hwhole : s.fractionDigits = [] ∧ ∀ c ∈ s.exponentDigits, c = '0'
  · obtain ⟨hfraction, hzeros⟩ := hwhole
    rw [kind_ofLiteral_of_whole h ⟨hfraction, hzeros⟩, shapeKind]
    by_cases hexponent : s.exponentDigits = []
    · simp [hfraction, hexponent, HasZeroExponent]
    · have hzero : s.HasZeroExponent := ⟨hexponent, hzeros⟩
      rw [if_neg fun hnone => hexponent hnone.2, and_iff_right hfraction, and_iff_right hzero,
        integerKind_eq_number_iff]
  · -- the shape asks for a number too: with no exponent digits at all, all of them are zeros
    have hshape : ¬(s.fractionDigits = [] ∧ s.exponentDigits = []) := fun hnone =>
      hwhole ⟨hnone.1, by simp [hnone.2]⟩
    rw [kind_ofLiteral_of_not_whole h hwhole, shapeKind, if_neg hshape]
    exact iff_of_true rfl fun hzero => hwhole ⟨hzero.1, hzero.2.1.2⟩

end Greedy

/-- **The kind of what is read from a buffer.**  The text of the window begins with one greedy
literal, and with no other.  It is read as an integer, narrow or wide, exactly if it has no digit of
a fraction, none but zeros in an exponent, and fits that kind; else as a number.  This is the kind
that its shape asks for, unless it is an integer with an exponent of zero. -/
theorem kind_ofNumeralBytes (buffer : List UInt8) (length : Option Nat) :
    ∃ (s : Spelling) (rest : List Char),
      (windowText buffer length = s.text ++ rest ∧ s.Greedy rest) ∧
      (∀ s' rest', windowText buffer length = s'.text ++ rest' → s'.Greedy rest' →
        s' = s ∧ rest' = rest) ∧
      let kind := (ofNumeralBytes buffer length : Value H).kind
      (kind = .integer ↔ (s.fractionDigits = [] ∧ ∀ c ∈ s.exponentDigits, c = '0') ∧ s.IsNarrow) ∧
      (kind = .long ↔ (s.fractionDigits = [] ∧ ∀ c ∈ s.exponentDigits, c = '0') ∧
        s.IsWide ∧ ¬s.IsNarrow) ∧
      (kind = .number ↔
        ¬((s.fractionDigits = [] ∧ ∀ c ∈ s.exponentDigits, c = '0') ∧ s.IsWide)) ∧
      (kind = s.shapeKind ↔ ¬(s.fractionDigits = [] ∧ s.HasZeroExponent ∧ s.IsWide)) := by
  rcases hscan : Spelling.scan (windowText buffer length) with ⟨s, rest⟩
  obtain ⟨htext, hgreedy⟩ := Spelling.scan_eq_iff.mp hscan
  have hread : (ofNumeralBytes buffer length : Value H) = ofLiteral s.literal := by
    change ofLiteral (Spelling.scan (windowText buffer length)).1.literal = _
    rw [hscan]
  refine ⟨s, rest, ⟨htext, hgreedy⟩, fun s' rest' htext' hgreedy' => ?_, ?_⟩
  · have hscan' := hscan.symm.trans (Spelling.scan_eq_iff.mpr ⟨htext', hgreedy'⟩)
    exact ⟨(Prod.mk.inj hscan').1.symm, (Prod.mk.inj hscan').2.symm⟩
  · have hshape := kind_eq_shapeKind_iff (H := H) hgreedy
    dsimp only
    rw [hread]
    by_cases hwhole : s.fractionDigits = [] ∧ ∀ c ∈ s.exponentDigits, c = '0'
    · have hkind := kind_ofLiteral_of_whole (H := H) hgreedy hwhole
      rw [and_iff_right hwhole, and_iff_right hwhole, and_iff_right hwhole]
      rw [hkind] at hshape ⊢
      exact ⟨integerKind_eq_integer_iff s, integerKind_eq_long_iff s, integerKind_eq_number_iff s,
        hshape⟩
    · have hkind := kind_ofLiteral_of_not_whole (H := H) hgreedy hwhole
      exact ⟨by simp [hkind, hwhole], by simp [hkind, hwhole], by simp [hkind, hwhole], hshape⟩

/-- A five with an exponent of zero has the shape of a number and is read as an integer. -/
theorem kind_ofNumeralBytes_zero_exponent :
    let s : Spelling := ⟨false, ['5'], none, some ⟨'e', none, ['0']⟩⟩
    Spelling.scan (windowText [0x35, 0x65, 0x30] none) = (s, []) ∧ s.exponentDigits ≠ [] ∧
      s.shapeKind = .number ∧
      (ofNumeralBytes [0x35, 0x65, 0x30] none : Value Unit) = .integer 5 := by
  decide +kernel

end Value
end Interchange
