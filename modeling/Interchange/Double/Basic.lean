/-
# Binary floating-point numbers

A `Double` is one datum of the binary64 format: a not-a-number with its sign and payload, an
infinity, or a finite number.  A finite number is a sign and a *code*, its place in the increasing
list of all finite magnitudes, so neighbouring codes are neighbouring magnitudes.

Every finite magnitude is a whole multiple of 2 ^ -1074, the least positive one.  The library
measures finite numbers in that unit: `Finite.units` is an exact integer, and each operation is a
rule about such integers.

The numbers of the script, the milliseconds of an instant and the offsets of a zone are all doubles.
The format is modelled as data and not left to a type without a logic, because which count of
milliseconds is exact, which text is the nearest number and what happens to the sign of zero are
what the theorems are about.

* `ofBits_toBits`, `toBits_ofBits`: data and 64-bit patterns correspond one to one;
* `Finite.units_eq_zero_iff`: only the two zeros measure nothing.
-/
namespace Interchange
namespace Double

/-! ## 1. The data -/

/-- A not-a-number keeps the sign and the payload bits it was written with, so that a value that is
only handed over is handed over unchanged. -/
structure NotANumber where
  negative : Bool
  payload : Nat
  payload_pos : 0 < payload
  payload_lt : payload < 0x10000000000000
  deriving DecidableEq

/-- A finite number is a sign and the place of its magnitude among all finite magnitudes; the code
`0x7FF0000000000000` is beyond the last of them. -/
structure Finite where
  negative : Bool
  code : Nat
  code_lt : code < 0x7FF0000000000000
  deriving DecidableEq

end Double

open Double in
/-- One datum of the binary64 format. -/
inductive Double where
  | nan (datum : NotANumber)
  | infinity (negative : Bool)
  | finite (datum : Finite)
  deriving DecidableEq

namespace Double

/-- The not-a-number that operations without a result give, and the mark of the empty instant. -/
def quietNaN : Double := .nan ⟨false, 0x8000000000000, by decide, by decide⟩

/-- Zero of either sign. -/
def zero (negative : Bool) : Double := .finite ⟨negative, 0, by decide⟩

instance : Inhabited Double := ⟨zero false⟩

def isNaN : Double → Bool
  | .nan _ => true
  | _ => false

def isFinite : Double → Bool
  | .finite _ => true
  | _ => false

/-! ## 2. Measuring finite numbers -/

/-- How many units of 2 ^ -1074 make one.  As a shift it is a number that evaluates at once. -/
def unitsPerOne : Nat := 1 <<< 1074

namespace Finite

/-- The binary exponent field: 0 for subnormal numbers, 1 to 2046 for normal ones. -/
def exponent (x : Finite) : Nat := x.code / 0x10000000000000

/-- The trailing 52 bits of the code. -/
def fraction (x : Finite) : Nat := x.code % 0x10000000000000

/-- The integer that is the magnitude in units, once `scale` bits are added behind it: the fraction
with its leading bit, which subnormal numbers do not have. -/
def significand (x : Finite) : Nat :=
  if x.exponent = 0 then x.fraction else 0x10000000000000 + x.fraction

/-- The number of bits by which the significand is shifted. -/
def scale (x : Finite) : Nat := x.exponent - 1

/-- The magnitude in units of 2 ^ -1074. -/
def magnitude (x : Finite) : Nat := x.significand <<< x.scale

/-- The signed value in units of 2 ^ -1074.  Both zeros measure 0. -/
def units (x : Finite) : Int := if x.negative then -(x.magnitude : Int) else x.magnitude

theorem significand_lt (x : Finite) : x.significand < 0x20000000000000 := by
  have h : x.code % 0x10000000000000 < 0x10000000000000 := Nat.mod_lt _ (by decide)
  unfold significand fraction
  split <;> omega

theorem magnitude_eq_zero_iff (x : Finite) : x.magnitude = 0 ↔ x.code = 0 := by
  have hp : 0 < 2 ^ x.scale := Nat.two_pow_pos _
  have hm : x.magnitude = 0 ↔ x.significand = 0 := by
    unfold magnitude
    rw [Nat.shiftLeft_eq, Nat.mul_eq_zero]
    constructor
    · rintro (h | h)
      · exact h
      · omega
    · exact Or.inl
  rw [hm]
  unfold significand exponent fraction
  split <;> omega

/-- Only the two zeros measure nothing. -/
theorem units_eq_zero_iff (x : Finite) : x.units = 0 ↔ x.code = 0 := by
  rw [← magnitude_eq_zero_iff]
  unfold units
  split <;> omega

@[simp] theorem natAbs_units (x : Finite) : x.units.natAbs = x.magnitude := by
  unfold units
  split <;> omega

end Finite

/-! ## 3. Bit patterns -/

def signBit (negative : Bool) : Nat := if negative then 0x8000000000000000 else 0

def toNat : Double → Nat
  | .nan n => signBit n.negative + 0x7FF0000000000000 + n.payload
  | .infinity s => signBit s + 0x7FF0000000000000
  | .finite x => signBit x.negative + x.code

/-- The datum that a 64-bit pattern stands for. -/
def ofBits (bits : UInt64) : Double :=
  let negative := decide (0x8000000000000000 ≤ bits.toNat)
  let code := bits.toNat % 0x8000000000000000
  if finite : code < 0x7FF0000000000000 then .finite ⟨negative, code, finite⟩
  else if infinite : code = 0x7FF0000000000000 then .infinity negative
  else .nan ⟨negative, code - 0x7FF0000000000000, by omega, by
    have h : bits.toNat % 0x8000000000000000 < 0x8000000000000000 := Nat.mod_lt _ (by decide)
    omega⟩

/-- The 64-bit pattern of a datum. -/
def toBits (x : Double) : UInt64 := UInt64.ofNat x.toNat

theorem toNat_lt (x : Double) : x.toNat < 0x10000000000000000 := by
  match x with
  | .nan n =>
    have h := n.payload_lt
    simp only [toNat, signBit]
    split <;> omega
  | .infinity s =>
    simp only [toNat, signBit]
    split <;> omega
  | .finite x =>
    have h := x.code_lt
    simp only [toNat, signBit]
    split <;> omega

theorem toNat_toBits (x : Double) : x.toBits.toNat = x.toNat := by
  have h := x.toNat_lt
  simp only [toBits, UInt64.toNat_ofNat']
  omega

theorem toNat_injective {x y : Double} (h : x.toNat = y.toNat) : x = y := by
  match x, y with
  | .nan ⟨s, p, h0, h1⟩, .nan ⟨t, q, k0, k1⟩ =>
    cases s <;> cases t <;> simp only [toNat, signBit, reduceIte, Bool.false_eq_true] at h <;>
      first | (exfalso; omega) | (obtain rfl : p = q := (by omega); rfl)
  | .infinity s, .infinity t =>
    cases s <;> cases t <;> simp only [toNat, signBit, reduceIte, Bool.false_eq_true] at h <;>
      first | rfl | (exfalso; omega)
  | .finite ⟨s, c, hc⟩, .finite ⟨t, d, hd⟩ =>
    cases s <;> cases t <;> simp only [toNat, signBit, reduceIte, Bool.false_eq_true] at h <;>
      first | (exfalso; omega) | (obtain rfl : c = d := (by omega); rfl)
  | .nan ⟨s, p, h0, h1⟩, .infinity t => simp only [toNat, signBit] at h; grind
  | .nan ⟨s, p, h0, h1⟩, .finite ⟨t, d, hd⟩ => simp only [toNat, signBit] at h; grind
  | .infinity s, .nan ⟨t, q, k0, k1⟩ => simp only [toNat, signBit] at h; grind
  | .infinity s, .finite ⟨t, d, hd⟩ => simp only [toNat, signBit] at h; grind
  | .finite ⟨s, c, hc⟩, .nan ⟨t, q, k0, k1⟩ => simp only [toNat, signBit] at h; grind
  | .finite ⟨s, c, hc⟩, .infinity t => simp only [toNat, signBit] at h; grind

/-- **Each bit pattern is that of the datum it stands for.** -/
theorem toBits_ofBits (bits : UInt64) : (ofBits bits).toBits = bits := by
  apply UInt64.toNat_inj.mp
  rw [toNat_toBits]
  have h := bits.toNat_lt
  unfold ofBits
  dsimp only
  split
  · simp only [toNat, signBit, decide_eq_true_eq]
    split <;> omega
  · split
    · simp only [toNat, signBit, decide_eq_true_eq]
      split <;> omega
    · simp only [toNat, signBit, decide_eq_true_eq]
      split <;> omega

/-- **Each datum comes back from its bit pattern**, the payload of a not-a-number included. -/
theorem ofBits_toBits (x : Double) : ofBits x.toBits = x := by
  apply toNat_injective
  rw [← toNat_toBits, toBits_ofBits, toNat_toBits]

/-- One, minus zero and the least positive number, by their bit patterns. -/
example : ofBits 0x3FF0000000000000 = .finite ⟨false, 0x3FF0000000000000, by decide⟩ ∧
    ofBits 0x8000000000000000 = zero true ∧
    (ofBits 1 = .finite ⟨false, 1, by decide⟩) := by decide

end Double
end Interchange
