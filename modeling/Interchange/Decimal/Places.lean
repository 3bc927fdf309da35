/-
# Decimal places of a quotient

A positive quotient of naturals is measured against powers of ten: where its leading digit stands,
and which whole number is nearest after moving the decimal point.  Rounding to a number of
significant digits joins the two.

A double is such a quotient, of its units by the units in one, and so is the decimal of a numeric
literal, of its digits by a power of ten.  Nothing is rounded before `roundAt` says so.
-/
import Interchange.Decimal.Digits
import Interchange.Rounding

namespace Interchange
namespace Decimal

/-- How many decimal digits a number has; zero has one. -/
def digitCount (n : Nat) : Nat := (digits n).length

/-- The exponent of the leading digit of a positive quotient: of the greatest power of ten that is
not above it.  Below one, the leading digit stands where the first power of ten lifts the quotient
to one. -/
def leadingExponent (num den : Nat) : Int :=
  if den ≤ num then (digitCount (num / den) : Int) - 1
  else -(digitCount ((den - 1) / num) : Int)

/-- The quotient `num / den` times a power of ten, as a quotient again: moving the point multiplies
one side of it. -/
def shift (num den : Nat) : Int → Nat × Nat
  | .ofNat p => (num * powerOfTen p, den)
  | .negSucc p => (num, den * powerOfTen (p + 1))

/-- The whole number nearest to `num / den` times a power of ten. -/
def roundAt (num den : Nat) (power : Int) : Nat :=
  roundHalfEven (shift num den power).1 (shift num den power).2

/-- A positive quotient rounded to a number of significant digits: the digits as one number, and the
exponent of the leading digit.  Rounding up to the next power of ten moves that exponent. -/
def toSignificant (precision num den : Nat) : Nat × Int :=
  let exponent := leadingExponent num den
  let rounded := roundAt num den ((precision : Int) - 1 - exponent)
  if rounded = powerOfTen precision then (powerOfTen (precision - 1), exponent + 1)
  else (rounded, exponent)

/-- Two thirds, a carry into the next power of ten, and a tie. -/
example : toSignificant 4 2 3 = (6667, -1) ∧ toSignificant 2 9996 1 = (10, 4) ∧
    toSignificant 1 25 1 = (2, 1) ∧ leadingExponent 1 1000 = -3 ∧
    leadingExponent 999 100000 = -3 := by decide

end Decimal
end Interchange
