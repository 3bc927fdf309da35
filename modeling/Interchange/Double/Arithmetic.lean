/-
# Arithmetic and comparison of `Double`s

Each operation works on exact counts of units and rounds once.  Comparisons place the data on one
integer line, `ordinal`, where both zeros stand at 0 and a not-a-number has no place.

These are the operations that instants use: sums, differences and products for moving, `rem_euclid`
for cutting back, `floor` for the calendar, and comparisons.  Which payload a not-a-number has after
an operation is left open by the format; here the first operand's is kept.

* `equals_self_iff`: a datum equals itself unless it is a not-a-number;
* `sub_eq_add_neg`: subtraction adds the opposite.
-/
import Interchange.Double.Rounding

namespace Interchange
namespace Double

/-! ## 1. Sign and order -/

def neg : Double → Double
  | .nan n => .nan { n with negative := !n.negative }
  | .infinity s => .infinity !s
  | .finite x => .finite { x with negative := !x.negative }

def abs : Double → Double
  | .nan n => .nan { n with negative := false }
  | .infinity _ => .infinity false
  | .finite x => .finite { x with negative := false }

def isNegative : Double → Bool
  | .nan n => n.negative
  | .infinity s => s
  | .finite x => x.negative

/-- The place of a datum on the integer line of all magnitudes and their opposites, infinities at
both ends. -/
def ordinal : Double → Option Int
  | .nan _ => none
  | .infinity s => some (if s then -0x7FF0000000000000 else 0x7FF0000000000000)
  | .finite x => some (if x.negative then -(x.code : Int) else x.code)

/-- Equality of numbers: the two zeros are equal, a not-a-number equals nothing. -/
def equals (x y : Double) : Bool :=
  match x.ordinal, y.ordinal with
  | some a, some b => a = b
  | _, _ => false

/-- Strict order of numbers; nothing is below or above a not-a-number. -/
def lt (x y : Double) : Bool :=
  match x.ordinal, y.ordinal with
  | some a, some b => a < b
  | _, _ => false

/-- Order of numbers; nothing is below or above a not-a-number. -/
def le (x y : Double) : Bool :=
  match x.ordinal, y.ordinal with
  | some a, some b => a ≤ b
  | _, _ => false

/-- A datum equals itself unless it is a not-a-number. -/
theorem equals_self_iff (x : Double) : x.equals x = true ↔ x.isNaN = false := by
  cases x <;> simp [equals, ordinal, isNaN]

theorem equals_comm (x y : Double) : x.equals y = y.equals x := by
  unfold equals
  cases x.ordinal <;> cases y.ordinal <;> simp [eq_comm]

/-! ## 2. Sums and products -/

/-- The sum.  A sum that is exactly zero is positive unless both terms are negative. -/
def add : Double → Double → Double
  | .nan n, _ => .nan n
  | _, .nan n => .nan n
  | .infinity s, .infinity t => if s = t then .infinity s else quietNaN
  | .infinity s, .finite _ => .infinity s
  | .finite _, .infinity t => .infinity t
  | .finite x, .finite y =>
    if x.units + y.units = 0 then zero (x.negative && y.negative)
    else ofUnits (x.units + y.units)

def sub (x y : Double) : Double := add x y.neg

def mul : Double → Double → Double
  | .nan n, _ => .nan n
  | _, .nan n => .nan n
  | .infinity s, .infinity t => .infinity (s != t)
  | .infinity s, .finite y => if y.code = 0 then quietNaN else .infinity (s != y.negative)
  | .finite x, .infinity t => if x.code = 0 then quietNaN else .infinity (x.negative != t)
  | .finite x, .finite y =>
    ofMagnitude (x.negative != y.negative) (x.magnitude * y.magnitude) unitsPerOne

instance : Neg Double := ⟨neg⟩
instance : Add Double := ⟨add⟩
instance : Sub Double := ⟨sub⟩
instance : Mul Double := ⟨mul⟩

theorem sub_eq_add_neg (x y : Double) : x - y = x + -y := rfl

/-! ## 3. Integers and remainders -/

/-- The greatest integer not above a finite number. -/
def floor? : Double → Option Int
  | .finite x => some (x.units / unitsPerOne)
  | _ => none

/-- The integer that a finite number is, if it is one. -/
def toInt? : Double → Option Int
  | .finite x => if x.units % unitsPerOne = 0 then some (x.units / unitsPerOne) else none
  | _ => none

/-- Rounding down to an integer; the result has the sign of the number, zero included. -/
def floor : Double → Double
  | .finite x => ofMagnitude x.negative ((x.units / unitsPerOne).natAbs * unitsPerOne) 1
  | x => x

/-- The remainder of truncating division; it has the sign of the dividend, zero included. -/
def rem : Double → Double → Double
  | .nan n, _ => .nan n
  | _, .nan n => .nan n
  | .infinity _, _ => quietNaN
  | .finite x, .infinity _ => .finite x
  | .finite x, .finite y =>
    if y.code = 0 then quietNaN
    else ofMagnitude x.negative (x.magnitude % y.magnitude) 1

/-- The remainder that is not negative: a negative one is moved up by the divisor's magnitude.  That
sum is rounded, and can be the divisor itself. -/
def remEuclid (x y : Double) : Double :=
  let r := rem x y
  if r.lt (zero false) then r + y.abs else r

/-- Sums round once, exact zeros are positive, and remainders follow the dividend. -/
example : ofRatio false 1 10 + ofRatio false 2 10 = ofBits 0x3FD3333333333334 ∧
    ofInt 5 - ofInt 5 = zero false ∧ zero true + zero true = zero true ∧
    rem (ofInt (-7)) (ofInt 2) = ofInt (-1) ∧ remEuclid (ofInt (-7)) (ofInt 2) = ofInt 1 ∧
    floor (ofRatio true 1 2) = ofInt (-1) ∧ toInt? (ofInt (-3)) = some (-3) := by decide +kernel

end Double
end Interchange
