/-
# Reading a date text operation by operation

A machine has no lists of characters and no unbounded numbers.  It keeps a text as bytes and cuts it
at places that are counted in bytes, it finds a token by its index, it has 64 bits for a number, and
a number goes into a narrower word without a look at what is cut off.  Each of these operations can
go wrong.  Here they are spelled out, in the order in which they happen, and one that goes wrong is
a fault and stops the reading.  Lengths and indexes count what is in memory: they never grow too
large, and only going below zero is a fault.

What a text is rejected for is not a fault.  The machine collects the same `Scan` as `readMillis`,
so that the two can be compared.

Each definition follows the operation that its namesake for lists follows (`readCompact` is
`read_compact`, `millis` is `millis`), but line by line.  A slice of a text is a `sliceTo` or a
`sliceFrom`, which can fault, unless it was asked for with `get`, which answers that there is none:
then it is a `get?`.  A token by its index is a `tokenAt`, a sum or a product a `fit`, a cast a
`narrow`.  Where an operation looks first and has an answer for the other case, as `number_at` does,
there is no fault.

* `Fault`, `Stop`: what can go wrong, and how a reading stops;
* `tokenize`, `run`, `millis`: cutting the text, walking over the tokens, finding the instant;
* `readMillis`: the whole reading.
-/
import Mathlib.Data.List.DropRight
import Interchange.DateText.Read
import Interchange.Proofs.Text.Bytes

namespace Interchange
namespace DateText
namespace Machine

open Buffer Calendar

/-! ## 1. Operations that can go wrong -/

/-- What can go wrong.  Each would stop the program or, as a cast does, go on with a wrong number;
that it never happens is the theorem of `Proofs.DateText.Safety`. -/
inductive Fault where
  /-- A text is cut beyond its end or inside a character. -/
  | slice
  /-- There is no token of an index. -/
  | index
  /-- A result does not fit into its word. -/
  | overflow
  /-- A number that goes into a narrower word is not what its place can hold. -/
  | narrowing
  /-- A loop has gone round without taking anything off its input. -/
  | stuck
  deriving DecidableEq

/-- How a reading stops before its end. -/
inductive Stop where
  | fault (f : Fault)
  | rejected (e : Error)
  deriving DecidableEq

variable {α : Type}

def lift (x : Except Error α) : Except Stop α := x.mapError .rejected

/-- A signed number in 64 bits, the result of a sum, a product or a change of sign. -/
def fit (n : Int) : Except Stop Int :=
  if -(countLimit : Int) - 1 ≤ n ∧ n ≤ countLimit then .ok n else .error (.fault .overflow)

/-- The same of a number that is not negative. -/
def fitNat (n : Nat) : Except Stop Nat :=
  if n ≤ countLimit then .ok n else .error (.fault .overflow)

/-- The difference of two unsigned numbers, as of lengths: below zero there is none. -/
def minus (a b : Nat) : Except Stop Nat := if b ≤ a then .ok (a - b) else .error (.fault .overflow)

/-- A number that goes into a narrower word, at a place that can hold a range.  The cast itself
never fails, so it is asked that the number is one that the place has a meaning for. -/
def narrow (value low high : Int) : Except Stop Nat :=
  if low ≤ value ∧ value ≤ high then .ok value.toNat else .error (.fault .narrowing)

/-- A text up to a place, counted in bytes: a place inside a character, or beyond the end, is none.
-/
def sliceTo (text : List Char) (place : Nat) : Except Stop (List Char) :=
  match splitAt? place text with
  | some (before, _) => .ok before
  | none => .error (.fault .slice)

def sliceFrom (text : List Char) (place : Nat) : Except Stop (List Char) :=
  match splitAt? place text with
  | some (_, after) => .ok after
  | none => .error (.fault .slice)

/-- The token of an index. -/
def tokenAt (toks : List Token) (i : Nat) : Except Stop Token :=
  match toks[i]? with
  | some token => .ok token
  | none => .error (.fault .index)

/-- A cut inside a character of two bytes, a number of 64 bits that has no opposite, a difference
below zero, and a thirteenth month. -/
example :
    sliceTo "é".toList 1 = .error (.fault .slice) ∧
    fit (-(-(countLimit : Int) - 1)) = .error (.fault .overflow) ∧
    minus 2 3 = .error (.fault .overflow) ∧ narrow 13 1 12 = .error (.fault .narrowing) := by
  decide +kernel

/-! ## 2. Tokens -/

/-- The place where the class of characters that a text begins with ends. -/
def classEnd (p : Char → Bool) (text : List Char) : Nat := byteLength (text.takeWhile p)

/-- Whether a text begins with the sign of a field.  Only behind a minus sign is it cut. -/
def isSign (opening : Bool) (c : Char) (text : List Char) : Except Stop Bool :=
  if c = '-' ∧ opening = true then (sliceFrom text 1).map startsWithDigit else .ok false

/-- Takes a blank or a token off the front of a text that begins with a character. -/
def cut (opening : Bool) (c : Char) (text : List Char) :
    Except Stop (Option Token × List Char) := do
  if isBlank c then
    return (none, ← sliceFrom text c.utf8Size)
  else if ← isSign opening c text then
    return (some .leadingMinus, ← sliceFrom text 1)
  else if c.isDigit then
    let stop := classEnd Char.isDigit text
    return (some (.number (← sliceTo text stop)), ← sliceFrom text stop)
  else if c.isAlpha then
    let stop := classEnd Char.isAlpha text
    return (some (.word (← sliceTo text stop)), ← sliceFrom text stop)
  else
    return (some (.symbol c), ← sliceFrom text c.utf8Size)

/-- The tokens of a text: the loop of `tokenize`.  That each round takes something off the text is
looked at and not assumed; without it the loop would not end. -/
def tokenize (opening : Bool) (text : List Char) : Except Stop (List Token) :=
  match text with
  | [] => .ok []
  | c :: tail =>
    match cut opening c (c :: tail) with
    | .error e => .error e
    | .ok (token, rest) =>
      if rest.length < (c :: tail).length then
        (tokenize (isBlank c) rest).map (token.toList ++ ·)
      else .error (.fault .stuck)
termination_by text.length
decreasing_by assumption

/-! ## 3. Numbers -/

/-- The number that some digits denote, if it fits into 64 bits.  A number can be written with a
sign too, but no run of digits has one. -/
def parse? (digits : List Char) : Option Nat :=
  if IsDigits digits ∧ Decimal.value digits ≤ countLimit then some (Decimal.value digits) else none

/-- The number that some digits denote, or the largest one: every failure to parse counts as too
large. -/
def number (digits : List Char) : Nat := (parse? digits).getD countLimit

/-- The number that some of the digits denote, or zero if they are not there. -/
def sliceField (digits : List Char) (start stop : Nat) : Nat :=
  ((get? digits start stop).bind parse?).getD 0

def quantity (digits : List Char) : Quantity := ⟨number digits, byteLength digits, false⟩

def signed (negative : Bool) (value digits : Nat) : Except Stop Quantity := do
  return ⟨← if negative then fit (-value) else pure value, digits, negative⟩

def fractionMillis (digits : List Char) : Except Stop Nat := do
  let head := digits.take 3
  let width ← narrow (byteLength head) 0 3
  let scale ← fitNat (Decimal.powerOfTen (← minus 3 width))
  fitNat ((parse? head).getD 0 * scale)

def compactYearWidth (width : Nat) : Except Stop (Option Nat) :=
  if width = 8 ∨ width = 12 then .ok (some 4)
  else if 14 ≤ width ∧ width ≤ 16 then (minus width 10).map some
  else if 17 ≤ width ∧ width ≤ 19 then (minus width 13).map some
  else .ok none

def readCompact (s : Scan) (digits : List Char) (yearWidth : Nat) (negative : Bool) :
    Except Stop Scan := do
  let year ← signed negative (sliceField digits 0 yearWidth) yearWidth
  let month := quantity ((get? digits yearWidth (yearWidth + 2)).getD ['0'])
  let day := quantity ((get? digits (yearWidth + 2) (yearWidth + 4)).getD ['0'])
  return { s with
    numbers := [year, month, day]
    clock :=
      if yearWidth + 4 < byteLength digits then
        some ⟨sliceField digits (yearWidth + 4) (yearWidth + 6),
          sliceField digits (yearWidth + 6) (yearWidth + 8),
          sliceField digits (yearWidth + 8) (yearWidth + 10),
          sliceField digits (yearWidth + 10) (yearWidth + 13)⟩
      else s.clock }

def pushNumber (s : Scan) (digits : List Char) (negative : Bool) : Except Stop Scan := do
  if s.numbers.length < 3 then
    let q ← signed negative (number digits) (byteLength digits)
    return { s with numbers := s.numbers ++ [q] }
  else throw (.rejected (.unexpectedToken digits))

/-! ## 4. The walk over the tokens -/

def numberAt (toks : List Token) (i : Nat) : Option (List Char) :=
  match toks[i]? with
  | some (.number digits) => some digits
  | _ => none

/-- The number behind a symbol, if both are there: the second after its colon, the fraction after
its point. -/
def numberBehind (toks : List Token) (c : Char) (i : Nat) : Option (List Char) :=
  if toks[i]? = some (.symbol c) then numberAt toks (i + 1) else none

/-- Reads a clock from its hour on, and gives the index behind it. -/
def readClock (s : Scan) (toks : List Token) (start : Nat) : Except Stop (Scan × Nat) :=
  if s.clock.isSome then .error (.rejected (.unexpectedToken [':']))
  else
    let hour := number ((numberAt toks start).getD ['0'])
    match numberAt toks (start + 2) with
    | none => .error (.rejected (.missingField .minute))
    | some minute =>
      match numberBehind toks ':' (start + 3) with
      | none => .ok ({ s with clock := some ⟨hour, number minute, 0, 0⟩ }, start + 3)
      | some second =>
        match numberBehind toks '.' (start + 5) with
        | none =>
          .ok ({ s with clock := some ⟨hour, number minute, number second, 0⟩ }, start + 5)
        | some fraction => do
          let millisecond ← fractionMillis fraction
          return ({ s with clock := some ⟨hour, number minute, number second, millisecond⟩ },
            start + 7)

/-- Reads a number, and gives the index behind all that belongs to it. -/
def readNumber (s : Scan) (toks : List Token) (i : Nat) (digits : List Char) :
    Except Stop (Scan × Nat) := do
  let negative := s.minusPending
  let s := { s with minusPending := false }
  if toks[i + 1]? = some (.symbol ':') then
    if negative then throw (.rejected (.unexpectedToken ['-'])) else readClock s toks i
  else
    match ← compactYearWidth (byteLength digits) with
    | some yearWidth =>
      if s.isBlank then (readCompact s digits yearWidth negative).map (·, i + 1)
      else (pushNumber s digits negative).map (·, i + 1)
    | none => (pushNumber s digits negative).map (·, i + 1)

def setOffset (s : Scan) (direction : Scan.Direction) (hours minutes : Nat) :
    Except Stop Scan := do
  if 23 < hours then throw (.rejected (.fieldOutOfRange .zoneHour hours))
  else if 59 < minutes then throw (.rejected (.fieldOutOfRange .zoneMinute minutes))
  else
    let total ← fit ((← fit (hours * 60)) + minutes)
    let offset ← if direction = .behind then fit (-total) else pure total
    return { s with offsetMinutes := some offset }

/-- Reads a zone offset from its sign on, and gives the index behind it. -/
def readOffset (s : Scan) (direction : Scan.Direction) (toks : List Token) (start : Nat) :
    Except Stop (Scan × Nat) :=
  match numberAt toks (start + 1) with
  | none => .error (.rejected (.missingField .zoneOffset))
  | some digits =>
    if byteLength digits = 4 then
      (setOffset s direction (sliceField digits 0 2) (sliceField digits 2 4)).map (·, start + 2)
    else if byteLength digits = 1 ∨ byteLength digits = 2 then
      match numberBehind toks ':' (start + 2) with
      | some minutes =>
        (setOffset s direction (number digits) (number minutes)).map (·, start + 4)
      | none => (setOffset s direction (number digits) 0).map (·, start + 2)
    else .error (.rejected (.unexpectedToken digits))

/-- The place of the name that a word begins with.  The word is cut behind its third byte, which is
a place only because words are of ASCII letters. -/
def nameIndex (names : List (List Char)) (word : List Char) : Except Stop (Option Nat) := do
  if byteLength word < 3 then return none
  else
    let head ← sliceTo word 3
    return names.findIdx? (fun name => name.map Char.toLower = head.map Char.toLower)

def readWord (s : Scan) (word : List Char) : Except Stop Scan := do
  let lower := String.ofList (word.map Char.toLower)
  if lower = "t" then return s
  else if lower = "z" ∨ lower = "gmt" ∨ lower = "utc" ∨ lower = "ut" then
    return { s with offsetMinutes := some (s.offsetMinutes.getD 0) }
  else if lower = "am" then return { s with meridiem := some .am }
  else if lower = "pm" then return { s with meridiem := some .pm }
  else
    match ← nameIndex monthNames word with
    | some index => return { s with month := some (← fitNat (index + 1)) }
    | none =>
      if (← nameIndex weekdayNames word).isSome then return s
      else throw (.rejected (.unexpectedToken word))

/-- The index of the next closing parenthesis, or the end of the tokens. -/
def commentEnd (toks : List Token) (i : Nat) : Except Stop Nat :=
  if i < toks.length then do
    if (← tokenAt toks i) = .symbol ')' then return i else commentEnd toks (i + 1)
  else .ok i
termination_by toks.length - i

/-- Reads the token of an index, and gives the index to go on with. -/
def step (lenient : Bool) (toks : List Token) (s : Scan) (i : Nat) : Except Stop (Scan × Nat) := do
  match ← tokenAt toks i with
  | .number digits => readNumber s toks i digits
  | .word letters =>
    match readWord s letters with
    | .ok s => return (s, i + 1)
    | .error (.rejected e) => if lenient then return (s, i + 1) else throw (.rejected e)
    | .error (.fault f) => throw (.fault f)
  | .leadingMinus =>
    if s.clock.isSome then readOffset s .behind toks i
    else return ({ s with minusPending := true }, i + 1)
  | .symbol '+' =>
    if s.clock.isSome && (numberAt toks (i + 1)).isSome then readOffset s .ahead toks i
    else throw (.rejected (.unexpectedToken ['+']))
  | .symbol '-' =>
    if s.clock.isSome && (numberAt toks (i + 1)).isSome then readOffset s .behind toks i
    else return (s, i + 1)
  | .symbol '(' => return (s, (← commentEnd toks i) + 1)
  | .symbol '/' => return (s, i + 1)
  | .symbol ',' => return (s, i + 1)
  | .symbol '.' => return (s, i + 1)
  | .symbol c => throw (.rejected (.unexpectedToken [c]))

/-- Reads the tokens from an index on.  As for `tokenize`, that the index grows is looked at. -/
def run (lenient : Bool) (toks : List Token) (s : Scan) (i : Nat) : Except Stop Scan :=
  if i < toks.length then
    match step lenient toks s i with
    | .error e => .error e
    | .ok (s', i') => if i < i' then run lenient toks s' i' else .error (.fault .stuck)
  else .ok s
termination_by toks.length - i

/-! ## 5. The instant -/

def fullYear (q : Quantity) : Except Stop Int :=
  if q.negative = false ∧ (q.digits = 1 ∨ q.digits = 2) then
    if q.value < 50 then fit (2000 + q.value) else fit (1900 + q.value)
  else .ok q.value

def calendarDay (s : Scan) : Except Stop CalendarDay := do
  match s.month, s.numbers with
  | some month, [a, b] =>
    if a.isYear then return ⟨← fullYear a, month, b.value⟩
    else return ⟨← fullYear b, month, a.value⟩
  | some _, [a] =>
    if a.isYear then throw (.rejected (.missingField .day))
    else throw (.rejected (.missingField .year))
  | some _, [] => throw (.rejected (.missingField .day))
  | some _, numbers =>
    throw (.rejected
      (.unexpectedToken (Decimal.signed ((numbers.getLast?.map (·.value)).getD 0))))
  | none, [a, b, c] =>
    if a.isYear then return ⟨a.value, b.value, c.value⟩
    else return ⟨← fullYear c, a.value, b.value⟩
  | none, [] => throw (.rejected (.missingField .date))
  | none, [_] => throw (.rejected (.missingField .month))
  | none, _ => throw (.rejected (.missingField .day))

def hour24 : Option Meridiem → Nat → Except Stop Nat
  | none, hour => .ok hour
  | some half, hour =>
    if 1 ≤ hour ∧ hour ≤ 12 then
      match half with
      | .am => .ok (if hour = 12 then 0 else hour)
      | .pm => if hour < 12 then fitNat (hour + 12) else .ok hour
    else .error (.rejected (.fieldOutOfRange .hour hour))

/-- The milliseconds since the epoch that the collected parts denote.  The three casts of the date
come before the calendar is asked and the four of the time behind it; all are of parts that were
checked. -/
def millis (s : Scan) : Except Stop Int := do
  let day ← calendarDay s
  let clock := s.clockOrMidnight
  let hour ← hour24 s.meridiem clock.hour
  lift (Scan.check .year day.year (-0x80000000) 0x7FFFFFFF)
  lift (Scan.check .month day.month 1 12)
  lift (Scan.check .day day.day 1 31)
  lift (Scan.check .hour hour 0 23)
  lift (Scan.check .minute clock.minute 0 59)
  lift (Scan.check .second clock.second 0 59)
  let date : Date := ⟨day.year, (← narrow day.month 1 12) - 1, ← narrow day.day 1 31⟩
  if date.Valid ∧ HasYear date.year then
    let time : Time := ⟨← narrow hour 0 23, ← narrow clock.minute 0 59, ← narrow clock.second 0 59,
      ← narrow clock.millisecond 0 999⟩
    if time.Valid then
      -- the offset is taken off as a floating-point number, which does not overflow
      return (← fit (DateTime.toMillis ⟨date, time⟩)) - s.offsetMinutes.getD 0 * millisPerMinute
    else throw (.rejected .unrepresentable)
  else throw (.rejected (.fieldOutOfRange .day day.day))

/-- A text without the blanks at its ends. -/
def trim (text : List Char) : List Char := (text.dropWhile isBlank).rdropWhile isBlank

def readMillis (lenient : Bool) (text : List Char) : Except Stop Int := do
  let text := trim text
  if text.isEmpty then throw (.rejected .empty)
  else
    let toks ← tokenize true text
    let s ← run lenient toks .initial 0
    millis s

end Machine
end DateText
end Interchange
