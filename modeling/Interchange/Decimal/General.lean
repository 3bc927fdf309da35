/-
# General notation with sixteen significant digits

The text of a `Double` as values print it.  The number is rounded to sixteen significant digits; the
exponent after that rounding decides the style, and only then are the digits of the chosen style
worked out from the exact number.

* positional from 10 ^ -4 up to but not including 10 ^ 16, without zeros at the end of the fraction;
* otherwise a mantissa, `e`, a sign and at least two exponent digits;
* `NaN`, `Infinity` and `-Infinity` in words, and a zero keeps its sign.

This is `format_number`.  It writes the number twice: once with an exponent, for the digits and the
exponent after rounding, and if the style is positional once more with fixed decimals, from the
exact number again.  `generalMagnitude` does the same two roundings of the same exact quotient;
`withExponent` and `withPlaces` lay the digits out, and both trim the fraction as `trim_fraction`
does.
-/
import Interchange.Decimal.Places
import Interchange.Double.Basic

namespace Interchange
namespace Decimal

/-! ## 1. The two styles -/

/-- How many significant digits the text has at most: one short of what tells all doubles apart. -/
def precision : Nat := 16

def isPositional (exponent : Int) : Bool := -4 ≤ exponent && exponent < precision

/-- A whole part and the fraction after the point; an empty fraction has no point either. -/
def joinFraction (whole fraction : List Char) : List Char :=
  if fraction = [] then whole else whole ++ '.' :: fraction

/-- A number with a fixed count of digits after the point, given without the point. -/
def withPlaces (places scaled : Nat) : List Char :=
  let text := padded (places + 1) scaled
  let whole := text.length - places
  joinFraction (text.take whole) (dropTrailingZeros (text.drop whole))

/-- Digits with a point after the first one, and a power of ten. -/
def withExponent (digitsOf : List Char) (exponent : Int) : List Char :=
  joinFraction (digitsOf.take 1) (dropTrailingZeros (digitsOf.drop 1)) ++
    'e' :: (if exponent < 0 then '-' else '+') :: padded 2 exponent.natAbs

/-- The text of a positive quotient.  The digits of the positional style are rounded from the
quotient itself and not from the sixteen digits that chose the style. -/
def generalMagnitude (num den : Nat) : List Char :=
  let (rounded, exponent) := toSignificant precision num den
  if isPositional exponent then
    let places := ((precision : Int) - 1 - exponent).toNat
    withPlaces places (roundAt num den places)
  else withExponent (digits rounded) exponent

end Decimal

/-! ## 2. The text of a number -/

open Decimal in
/-- The text of a number in general notation.  All not-a-numbers are written alike, without their
sign. -/
def Double.general : Double → List Char
  | .nan _ => "NaN".toList
  | .infinity false => "Infinity".toList
  | .infinity true => "-Infinity".toList
  | .finite x =>
    let text := if x.code = 0 then ['0'] else generalMagnitude x.magnitude unitsPerOne
    if x.negative then '-' :: text else text

/-- A third, a tenth, the positional limit, and the zero below. -/
example :
    (Double.ofBits 0x3FD5555555555555).general = "0.3333333333333333".toList ∧
    (Double.ofBits 0x3FB999999999999A).general = "0.1".toList ∧
    (Double.ofBits 0x4341C37937E08000).general = "1e+16".toList ∧
    (Double.ofBits 0x8000000000000000).general = "-0".toList := by decide +kernel

end Interchange
