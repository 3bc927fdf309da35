/-
# Numeric literals

A literal is read greedily: an optional minus sign, digits, optionally a point and digits,
optionally `e` or `E`, a sign and digits.  Every run of digits may be empty, so each text begins
with a literal, and reading never fails.  What follows the literal is left alone.

This is `parse_numeric_bytes`, which walks a cursor over the window of a buffer, and classifies what
it read while it reads.  Here the two are apart.  `Spelling.scan` is the walk: `scanMinus`,
`scanDigits`, `scanFraction` and `scanExponent` are its parts in their order, each the part read and
the rest of the text.  `Spelling.literal` is the end of it, from "no fraction and the exponent is
zero" on, and `Spelling.number` is `decimal_value`.  `read` is `parse_numeric_literal`.

The walk counts the digits before the point in 64 bits and gives up where they do not fit; those
numbers are no 64-bit integers either way, so `integer` counts without a limit.

* `Spelling.scan` splits a text into the literal and the rest;
* `Spelling.literal` classifies it: an integer in 32 or 64 bits when it is written without a
  fraction and its exponent is zero, else the nearest `Double`;
* `Spelling.text_scan`: the literal and the rest make up the text again.
-/
import Interchange.Decimal.Places
import Interchange.Double.Rounding
import Interchange.Text.Buffer

namespace Interchange

/-- A classified literal.  A `long` is one that 32 bits do not hold. -/
inductive Literal where
  | integer (n : Int32)
  | long (n : Int64)
  | number (x : Double)
  deriving DecidableEq

namespace Literal

/-! ## 1. The parts of a literal -/

/-- What is written after `e` or `E`: the letter, the sign if there is one, and the digits, of which
there may be none. -/
structure Exponent where
  mark : Char
  sign : Option Char
  digits : List Char
  deriving DecidableEq

/-- A literal as it is written.  The fraction is absent when there is no point, and empty when
nothing follows the point; the two are classified alike. -/
structure Spelling where
  negative : Bool
  whole : List Char
  fraction : Option (List Char)
  exponent : Option Exponent
  deriving DecidableEq

def minusText : Bool → List Char
  | true => ['-']
  | false => []

def fractionText : Option (List Char) → List Char
  | none => []
  | some digits => '.' :: digits

def exponentText : Option Exponent → List Char
  | none => []
  | some e => e.mark :: (e.sign.toList ++ e.digits)

/-- The longest run of digits that a text begins with, and the rest. -/
def scanDigits (text : List Char) : List Char × List Char :=
  (text.takeWhile Char.isDigit, text.dropWhile Char.isDigit)

/-- Whether a text begins with a minus sign, and what follows it. -/
def scanMinus : List Char → Bool × List Char
  | '-' :: rest => (true, rest)
  | text => (false, text)

/-- The fraction that a text begins with, and the rest. -/
def scanFraction : List Char → Option (List Char) × List Char
  | '.' :: rest => (some (scanDigits rest).1, (scanDigits rest).2)
  | text => (none, text)

/-- The sign that a text begins with, and the rest.  It is the exponent's, which may be a plus sign
where that of the literal itself may not. -/
def scanSign : List Char → Option Char × List Char
  | c :: rest => if c = '+' ∨ c = '-' then (some c, rest) else (none, c :: rest)
  | [] => (none, [])

/-- The exponent that a text begins with, and the rest.  The letter and the sign are used up even if
no digits follow. -/
def scanExponent : List Char → Option Exponent × List Char
  | c :: rest =>
    if c = 'e' ∨ c = 'E' then
      let (sign, unsigned) := scanSign rest
      (some ⟨c, sign, (scanDigits unsigned).1⟩, (scanDigits unsigned).2)
    else (none, c :: rest)
  | [] => (none, [])

namespace Spelling

/-- The literal that a text begins with, and the rest. -/
def scan (text : List Char) : Spelling × List Char :=
  let (negative, unsigned) := scanMinus text
  let (whole, afterWhole) := scanDigits unsigned
  let (fraction, afterFraction) := scanFraction afterWhole
  let (exponent, rest) := scanExponent afterFraction
  (⟨negative, whole, fraction, exponent⟩, rest)

/-- The literal as text, each part as it was written. -/
def text (s : Spelling) : List Char :=
  minusText s.negative ++ s.whole ++ fractionText s.fraction ++
    exponentText s.exponent

/-! ## 2. What a literal denotes -/

def fractionDigits (s : Spelling) : List Char := s.fraction.getD []

/-- Exponents are not counted further than this, `MAX_EXPONENT`.  Such a power of ten is far outside
the format; only a text with about as many digits can tell that the limit is there. -/
def exponentLimit : Nat := 100000

/-- The power of ten that the exponent asks for; none and "e0" ask for the same. -/
def power (s : Spelling) : Int :=
  match s.exponent with
  | none => 0
  | some e =>
    let magnitude := min (Decimal.value e.digits) exponentLimit
    if e.sign = some '-' then -(magnitude : Int) else magnitude

/-- The digits before the point as a signed integer; minus zero is zero here. -/
def integer (s : Spelling) : Int :=
  if s.negative then -(Decimal.value s.whole : Int) else Decimal.value s.whole

/-- The number nearest to the decimal, rounded once; zero takes the sign that is written, and what
is too large is an infinity. -/
def number (s : Spelling) : Double :=
  let (num, den) := Decimal.shift (Decimal.value (s.whole ++ s.fractionDigits)) 1
    (s.power - s.fractionDigits.length)
  Double.ofRatio s.negative num den

/-- The classified literal.  What decides is the value of the exponent and not whether there is one,
and the digits of the fraction and not the point: "7." and "5e0" are integers. -/
def literal (s : Spelling) : Literal :=
  if s.fractionDigits = [] ∧ s.power = 0 then
    if -0x80000000 ≤ s.integer ∧ s.integer < 0x80000000 then .integer (Int32.ofInt s.integer)
    else if -0x8000000000000000 ≤ s.integer ∧ s.integer < 0x8000000000000000 then
      .long (Int64.ofInt s.integer)
    else .number s.number
  else .number s.number

end Spelling

/-- The literal that a text begins with.  Of a text without any it is zero. -/
def read (text : List Char) : Literal := (Spelling.scan text).1.literal

/-- The literal that the text in a byte buffer begins with; no byte beyond ASCII is part of one. -/
def readBytes (buffer : List UInt8) (length : Option Nat) : Literal :=
  read ((Buffer.window buffer length).map (fun b => Char.ofNat b.toNat))

/-! ## 3. Reading loses nothing -/

theorem scanDigits_append (text : List Char) : (scanDigits text).1 ++ (scanDigits text).2 = text :=
  List.takeWhile_append_dropWhile

theorem scanMinus_append (text : List Char) :
    minusText (scanMinus text).1 ++ (scanMinus text).2 = text := by
  fun_cases scanMinus text <;> simp [minusText]

theorem scanFraction_append (text : List Char) :
    fractionText (scanFraction text).1 ++ (scanFraction text).2 = text := by
  fun_cases scanFraction text <;> simp [fractionText, scanDigits_append]

theorem scanSign_append (text : List Char) :
    (scanSign text).1.toList ++ (scanSign text).2 = text := by
  fun_cases scanSign text <;> simp

theorem scanExponent_append (text : List Char) :
    exponentText (scanExponent text).1 ++ (scanExponent text).2 = text := by
  fun_cases scanExponent text with
  | case1 c rest _ sign unsigned hs =>
    have h := scanSign_append rest
    rw [hs] at h
    simp only [exponentText, List.cons_append, List.append_assoc, scanDigits_append, h]
  | case2 => simp [exponentText]
  | case3 => simp [exponentText]

/-- **The literal and the rest make up the text again.** -/
theorem Spelling.text_scan (text : List Char) : (scan text).1.text ++ (scan text).2 = text := by
  simp only [scan, Spelling.text, List.append_assoc]
  rw [scanExponent_append, scanFraction_append, scanDigits_append, scanMinus_append]

/-- A trailing point, an exponent of zero, a half, and what is left of a version number. -/
example : read "7.".toList = .integer 7 ∧ read "5e0".toList = .integer 5 ∧
    read ".5".toList = .number (Double.ofBits 0x3FE0000000000000) ∧
    read "1.5.6".toList = .number (Double.ofBits 0x3FF8000000000000) ∧
    read "-2147483649".toList = .long (-2147483649) ∧
    read "-0e400".toList = .number (Double.zero true) := by decide +kernel

end Literal
end Interchange
