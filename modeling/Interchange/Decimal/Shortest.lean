/-
# The shortest decimal that reads back

Among the decimals that round to a given `Double`, `shortest` finds one with the fewest digits and,
of those, the nearest; of two equally near it takes the larger.  The decimals that round to a number
fill an interval around it: its ends lie half-way to the neighbouring magnitudes and belong to it
exactly when the significand is even.

For each count of digits only two decimals matter, the neighbours of the number on that decimal
grid.  Seventeen digits always suffice.

Two layouts write the digits: `Layout.inspection` marks floating-point numbers as such and uses an
exponent outside 10 ^ -4 to 10 ^ 16, `Layout.plain` never uses an exponent.  They are the debug text
of a double, inside the debug text of instants and values, and its display text, which the script
side shows.
-/
import Interchange.Decimal.Places
import Interchange.Double.Basic

namespace Interchange

/-! ## 1. The interval that reads back -/

namespace Double.Finite

/-- Quarters of a unit in one: the exact value is `4 * significand` of them, shifted by `scale`. -/
def quarterUnits : Nat := 4 * unitsPerOne

/-- Whether the magnitude below is only half as far away as the one above. -/
def hasNarrowGap (x : Finite) : Bool := x.fraction = 0 && 1 < x.exponent

/-- The lower end of the interval, in quarters of a unit. -/
def lowerEnd (x : Finite) : Nat :=
  (4 * x.significand - (if x.hasNarrowGap then 1 else 2)) <<< x.scale

/-- The upper end of the interval, in quarters of a unit. -/
def upperEnd (x : Finite) : Nat := (4 * x.significand + 2) <<< x.scale

/-- Whether `num / den` quarters of a unit round to the number; a tie goes to the even significand,
so the ends belong to an even one. -/
def readsBack (x : Finite) (num den : Nat) : Bool :=
  if x.significand % 2 = 0 then x.lowerEnd * den ≤ num && num ≤ x.upperEnd * den
  else x.lowerEnd * den < num && num < x.upperEnd * den

end Double.Finite

namespace Decimal

open Double (Finite unitsPerOne)

/-! ## 2. The search -/

/-- A decimal: a coefficient times a power of ten. -/
structure Scaled where
  coefficient : Nat
  power : Int
  deriving DecidableEq

/-- Whether a decimal rounds to the number. -/
def Scaled.readsBack (d : Scaled) (x : Finite) : Bool :=
  let (num, den) := shift (d.coefficient * Finite.quarterUnits) 1 d.power
  x.readsBack num den

/-- Whether the number lies below the middle between a decimal and the next one on its grid. -/
def Scaled.isNearerThanNext (d : Scaled) (x : Finite) : Bool :=
  let (num, den) := shift ((2 * d.coefficient + 1) * unitsPerOne) 1 d.power
  2 * x.magnitude * den < num

/-- The neighbour below the number on the grid of decimals with so many significant digits. -/
def below (x : Finite) (count : Nat) : Scaled :=
  let power := leadingExponent x.magnitude unitsPerOne - ((count : Int) - 1)
  let (num, den) := shift x.magnitude unitsPerOne (-power)
  ⟨num / den, power⟩

/-- The better of the two neighbours on one grid, if one of them reads back. -/
def candidate (x : Finite) (count : Nat) : Option Scaled :=
  let low := below x count
  let high : Scaled := { low with coefficient := low.coefficient + 1 }
  match low.readsBack x, high.readsBack x with
  | true, true => some (if low.isNearerThanNext x then low else high)
  | true, false => some low
  | false, true => some high
  | false, false => none

/-- The shortest decimal that reads back as a positive magnitude: the first count of digits with a
candidate. -/
def shortest (x : Finite) : Scaled :=
  ((List.range 17).findSome? (fun k => candidate x (k + 1))).getD (below x 17)

/-! ## 3. Layouts -/

/-- How the digits are laid out: which leading exponents are written positionally, and whether an
integer keeps a point and a zero. -/
structure Layout where
  positional : Int → Bool
  keepsPoint : Bool

/-- Integers end in `.0`; very small and very large numbers have an exponent. -/
def Layout.inspection : Layout := ⟨fun e => -4 ≤ e && e < 16, true⟩

/-- Every digit is written out and an integer has no point. -/
def Layout.plain : Layout := ⟨fun _ => true, false⟩

/-- Digits with the decimal point after the first `point` of them, which may lie outside. -/
def positionalText (keepsPoint : Bool) (text : List Char) (point : Int) : List Char :=
  if point ≤ 0 then '0' :: '.' :: (List.replicate (-point).toNat '0' ++ text)
  else if text.length ≤ point.toNat then
    text ++ List.replicate (point.toNat - text.length) '0' ++
      (if keepsPoint then ['.', '0'] else [])
  else text.take point.toNat ++ '.' :: text.drop point.toNat

/-- Digits with a point after the first one, and the exponent in as few characters as possible. -/
def exponentText (text : List Char) (exponent : Int) : List Char :=
  text.take 1 ++ (if text.length ≤ 1 then [] else '.' :: text.drop 1) ++ 'e' :: signed exponent

def Layout.write (layout : Layout) (d : Scaled) : List Char :=
  let exponent := d.power + (digitCount d.coefficient : Int) - 1
  let text := dropTrailingZeros (digits d.coefficient)
  if layout.positional exponent then positionalText layout.keepsPoint text (exponent + 1)
  else exponentText text exponent

def Layout.text (layout : Layout) : Double → List Char
  | .nan _ => "NaN".toList
  | .infinity false => "inf".toList
  | .infinity true => "-inf".toList
  | .finite x =>
    let text :=
      if x.code = 0 then (if layout.keepsPoint then "0.0".toList else ['0'])
      else layout.write (shortest x)
    if x.negative then '-' :: text else text

end Decimal

/-- The text that marks a number as floating-point. -/
def Double.inspect (x : Double) : List Char := Decimal.Layout.inspection.text x

/-- The text with every digit written out. -/
def Double.plain (x : Double) : List Char := Decimal.Layout.plain.text x

/-- The least positive number, the limits of the positional style, and a number that needs
seventeen digits. -/
example :
    (Double.ofBits 1).inspect = "5e-324".toList ∧
    (Double.ofBits 0x4341C37937E08000).inspect = "1e16".toList ∧
    (Double.ofBits 0x4341C37937E07FFF).inspect = "9999999999999998.0".toList ∧
    (Double.ofBits 0x3FD3333333333334).plain = "0.30000000000000004".toList ∧
    (Double.ofBits 0x4341C37937E08000).plain = "10000000000000000".toList := by decide +kernel

end Interchange
