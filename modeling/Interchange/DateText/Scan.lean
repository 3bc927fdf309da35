/-
# Collecting the parts of a date text

The scanner walks over the tokens once and decides the role of each from its width, its neighbours
and what was found before: a number before a colon opens the clock, a wide number may be a whole
date, a sign after the clock opens a zone offset, and any other number is kept for the calendar.
A parenthesis opens a comment up to the next closing one.

A strict scan rejects a word that it does not know; a lenient scan skips it.

The scan is the loop `run` over the places of the tokens, and each of its operations returns the
place behind what it read.  Here a place is the list of the tokens that are left, and one definition
stands for one operation:

* `compactYearWidth` is `compact_year_digits`, `slice` is `slice_field`, `fractionMillis` is
  `fraction_millis` and `nameIndex` is `lookup`;
* `readCompact`, `readClock`, `readOffset` and `readWord` are `read_compact`, `read_clock`,
  `read_offset` and `read_word`;
* `readNumber` is the first arm of the loop, `step` all its arms in their order, `run` the loop.

Numbers are 64-bit there, and a run of digits that does not fit counts as the greatest
(`countLimit`), which is no part of any date.  The places of a text are bytes there.  That no
operation leaves its range in either, so that natural numbers and lists of characters do for both,
is proved in `Proofs.DateText.Safety`.

* `suffix_step`: each step takes tokens off the front of those that are left, so the scan ends.
-/
import Interchange.DateText.Error
import Interchange.DateText.Token
import Interchange.Instant.Layout

namespace Interchange
namespace DateText

/-! ## 1. What is collected -/

/-- Numbers in a date text are counted no further than this: the greatest 64-bit number stands for
every run of digits that does not fit. -/
def countLimit : Nat := 0x7FFFFFFFFFFFFFFF

/-- The number that a run of digits denotes, within the limit.  Only a width of nineteen digits and
more can reach it. -/
def count (digits : List Char) : Nat := min (Decimal.value digits) countLimit

/-- A number of the calendar part: its value, the digits it was written with, and whether a minus
sign stood before it.  The width and the sign decide later whether it is the year, and whether the
year gets a century. -/
structure Quantity where
  value : Int
  digits : Nat
  negative : Bool
  deriving DecidableEq

/-- The quantity that a run of digits denotes: its value carries the sign, its width does not. -/
def Quantity.ofDigits (negative : Bool) (digits : List Char) : Quantity :=
  ⟨if negative then -(count digits : Int) else count digits, digits.length, negative⟩

/-- A time of day as it is written; nothing is in range yet.  The milliseconds alone always are,
because a fraction is cut to three digits. -/
structure Clock where
  hour : Nat
  minute : Nat
  second : Nat
  millisecond : Nat
  deriving DecidableEq

/-- The half of the day that a 12-hour clock names. -/
inductive Meridiem where
  | am | pm
  deriving DecidableEq

/-- What a scan has collected so far.  `minusPending` is set between the minus sign that opens a
field and the number behind it. -/
structure Scan where
  numbers : List Quantity
  month : Option Nat
  clock : Option Clock
  offsetMinutes : Option Int
  meridiem : Option Meridiem
  minusPending : Bool
  deriving DecidableEq

namespace Scan

/-- The scan at the first token. -/
def initial : Scan := ⟨[], none, none, none, none, false⟩

/-- Whether neither a number, a month nor a clock has been found: only then a wide run of digits is
a whole date.  A zone, a half of the day or the name of a weekday may have been. -/
def isBlank (s : Scan) : Bool := s.numbers.isEmpty && s.month.isNone && s.clock.isNone

/-! ## 2. Numbers -/

/-- The number that some digits of a run denote.  Zero, if the run ends before the first of them; a
run that ends within them is read as far as it goes, but no width that is read as a whole date ends
there. -/
def slice (digits : List Char) (start length : Nat) : Nat :=
  Decimal.value ((digits.drop start).take length)

/-- How many digits of a run are the year, if the run is as wide as a whole date: year, month and
day, or these with hours and minutes, with seconds, or with milliseconds. -/
def compactYearWidth (width : Nat) : Option Nat :=
  if width = 8 ∨ width = 12 then some 4
  else if 14 ≤ width ∧ width ≤ 16 then some (width - 10)
  else if 17 ≤ width ∧ width ≤ 19 then some (width - 13)
  else none

/-- Takes a run of digits for a whole date: the year, two digits of month and of day, and if more
digits follow, the clock.  The collected numbers are replaced, not extended; there are none yet. -/
def readCompact (s : Scan) (digits : List Char) (yearWidth : Nat) (negative : Bool) : Scan :=
  { s with
    numbers :=
      [.ofDigits negative (digits.take yearWidth),
        .ofDigits false ((digits.drop yearWidth).take 2),
        .ofDigits false ((digits.drop (yearWidth + 2)).take 2)]
    clock :=
      if yearWidth + 4 < digits.length then
        some ⟨slice digits (yearWidth + 4) 2, slice digits (yearWidth + 6) 2,
          slice digits (yearWidth + 8) 2, slice digits (yearWidth + 10) 3⟩
      else s.clock }

/-- Keeps a number for the calendar; there is room for three. -/
def pushNumber (s : Scan) (digits : List Char) (negative : Bool) : Except Error Scan :=
  if s.numbers.length < 3 then
    .ok { s with numbers := s.numbers ++ [.ofDigits negative digits] }
  else .error (.unexpectedToken digits)

/-- The milliseconds of a fraction of a second: its first three digits, zeros added. -/
def fractionMillis (digits : List Char) : Nat :=
  Decimal.value (digits.take 3 ++ List.replicate (3 - digits.length) '0')

/-- Reads a clock after its hour and colon: the minute, which must follow, and if they are there the
second and the fraction.  A colon or a point that no number follows is left for the next step, which
rejects the one and skips the other. -/
def readClock (s : Scan) (hour : List Char) (rest : List Token) :
    Except Error (Scan × List Token) :=
  if s.clock.isSome then .error (.unexpectedToken [':'])
  else
    match rest with
    | .number minute :: .symbol ':' :: .number second :: .symbol '.' :: .number fraction :: rest =>
      .ok ({ s with clock := some ⟨count hour, count minute, count second,
        fractionMillis fraction⟩ }, rest)
    | .number minute :: .symbol ':' :: .number second :: rest =>
      .ok ({ s with clock := some ⟨count hour, count minute, count second, 0⟩ }, rest)
    | .number minute :: rest =>
      .ok ({ s with clock := some ⟨count hour, count minute, 0, 0⟩ }, rest)
    | _ => .error (.missingField .minute)

/-- Reads a number: the hour of a clock before a colon, else a whole date if it is as wide as one
and the first thing found, else a number of the calendar.  A pending minus sign is used up in any
case; before the hour of a clock it is an error. -/
def readNumber (s : Scan) (digits : List Char) (rest : List Token) :
    Except Error (Scan × List Token) :=
  let negative := s.minusPending
  let s := { s with minusPending := false }
  match rest with
  | .symbol ':' :: after =>
    if negative then .error (.unexpectedToken ['-']) else s.readClock digits after
  | _ =>
    match compactYearWidth digits.length with
    | some yearWidth =>
      if s.isBlank then .ok (s.readCompact digits yearWidth negative, rest)
      else (s.pushNumber digits negative).map (·, rest)
    | none => (s.pushNumber digits negative).map (·, rest)

/-! ## 3. Zone offsets -/

/-- Whether an offset is ahead of or behind UTC. -/
inductive Direction where
  | ahead | behind
  deriving DecidableEq

/-- Sets the zone offset, once its hours and minutes are known to exist.  An offset that was set
before is replaced. -/
def setOffset (s : Scan) (direction : Direction) (hours minutes : Nat) : Except Error Scan :=
  if 23 < hours then .error (.fieldOutOfRange .zoneHour hours)
  else if 59 < minutes then .error (.fieldOutOfRange .zoneMinute minutes)
  else
    let total : Int := (hours * 60 + minutes : Nat)
    .ok { s with offsetMinutes := some (if direction = .behind then -total else total) }

/-- Reads a zone offset after its sign: four digits, or one or two digits for the hours and, after a
colon, the minutes.  A colon that no number follows is left for the next step. -/
def readOffset (s : Scan) (direction : Direction) (rest : List Token) :
    Except Error (Scan × List Token) :=
  match rest with
  | .number digits :: rest =>
    if digits.length = 4 then
      (s.setOffset direction (slice digits 0 2) (slice digits 2 2)).map (·, rest)
    else if digits.length = 1 ∨ digits.length = 2 then
      match rest with
      | .symbol ':' :: .number minutes :: rest =>
        (s.setOffset direction (count digits) (count minutes)).map (·, rest)
      | _ => (s.setOffset direction (count digits) 0).map (·, rest)
    else .error (.unexpectedToken digits)
  | _ => .error (.missingField .zoneOffset)

/-! ## 4. Words -/

/-- The place of the name that the first three letters of a word spell, in any letter case.  What
follows these letters is not looked at, so that a full name and its three letters are found alike,
and so is any other word that begins with them. -/
def nameIndex (names : List (List Char)) (word : List Char) : Option Nat :=
  if word.length < 3 then none
  else names.findIdx? (fun name => name.map Char.toLower = (word.take 3).map Char.toLower)

/-- Reads a word: a separator, a zone, a half of the day, a month or a day of the week, tried in
this order.  The name of a zone leaves an offset that is already set; a month replaces the one that
was found before; a weekday is not compared with the date. -/
def readWord (s : Scan) (word : List Char) : Except Error Scan :=
  let lower := String.ofList (word.map Char.toLower)
  if lower = "t" then .ok s
  else if lower = "z" ∨ lower = "gmt" ∨ lower = "utc" ∨ lower = "ut" then
    .ok { s with offsetMinutes := some (s.offsetMinutes.getD 0) }
  else if lower = "am" then .ok { s with meridiem := some .am }
  else if lower = "pm" then .ok { s with meridiem := some .pm }
  else
    match nameIndex Calendar.monthNames word with
    | some index => .ok { s with month := some (index + 1) }
    | none =>
      if (nameIndex Calendar.weekdayNames word).isSome then .ok s
      else .error (.unexpectedToken word)

/-! ## 5. The walk -/

/-- The tokens after the next closing parenthesis, none if there is no such: a comment that is not
closed reaches to the end of the text. -/
def skipComment : List Token → List Token
  | [] => []
  | .symbol ')' :: rest => rest
  | _ :: rest => skipComment rest

def startsWithNumber : List Token → Bool
  | .number _ :: _ => true
  | _ => false

/-- Reads one token, and those after it that belong to it.  A sign is an offset only behind a clock;
`leadingMinus` asks no more, and without a number behind it the zone offset is missing, while the
other two signs ask for the number first.  Without one a dash separates and a plus is rejected. -/
def step (lenient : Bool) (s : Scan) (token : Token) (rest : List Token) :
    Except Error (Scan × List Token) :=
  match token with
  | .number digits => s.readNumber digits rest
  | .word letters =>
    match s.readWord letters with
    | .ok s => .ok (s, rest)
    | .error e => if lenient then .ok (s, rest) else .error e
  | .leadingMinus =>
    if s.clock.isSome then s.readOffset .behind rest
    else .ok ({ s with minusPending := true }, rest)
  | .symbol '+' =>
    if s.clock.isSome && startsWithNumber rest then s.readOffset .ahead rest
    else .error (.unexpectedToken ['+'])
  | .symbol '-' =>
    if s.clock.isSome && startsWithNumber rest then s.readOffset .behind rest
    else .ok (s, rest)
  | .symbol '(' => .ok (s, skipComment rest)
  | .symbol '/' => .ok (s, rest)
  | .symbol ',' => .ok (s, rest)
  | .symbol '.' => .ok (s, rest)
  | .symbol c => .error (.unexpectedToken [c])

theorem suffix_skipComment (rest : List Token) : skipComment rest <:+ rest := by
  fun_induction skipComment rest with
  | case1 => exact List.suffix_refl []
  | case2 rest => exact List.suffix_cons _ rest
  | case3 token rest _ ih => exact ih.trans (List.suffix_cons token rest)

theorem suffix_readClock {s s' : Scan} {hour : List Char} {rest rest' : List Token}
    (h : s.readClock hour rest = .ok (s', rest')) : rest' <:+ rest := by
  unfold readClock at h
  split at h
  · simp at h
  · split at h <;> simp only [Except.ok.injEq, Prod.mk.injEq, reduceCtorEq] at h
    · exact h.2 ▸ ⟨[_, _, _, _, _], rfl⟩
    · exact h.2 ▸ ⟨[_, _, _], rfl⟩
    · exact h.2 ▸ ⟨[_], rfl⟩

theorem map_pair_eq_ok {x : Except Error Scan} {s' : Scan} {rest rest' : List Token}
    (h : x.map (·, rest) = .ok (s', rest')) : x = .ok s' ∧ rest' = rest := by
  cases x with
  | error e => contradiction
  | ok s =>
    obtain ⟨rfl, rfl⟩ := Prod.mk.inj (Except.ok.inj h)
    exact ⟨rfl, rfl⟩

theorem suffix_readNumber {s s' : Scan} {digits : List Char} {rest rest' : List Token}
    (h : s.readNumber digits rest = .ok (s', rest')) : rest' <:+ rest := by
  unfold readNumber at h
  dsimp only at h
  split at h
  · split at h
    · simp at h
    · exact (suffix_readClock h).trans (List.suffix_cons _ _)
  · split at h
    · split at h
      · simp only [Except.ok.injEq, Prod.mk.injEq] at h
        exact h.2 ▸ List.suffix_refl _
      · exact (map_pair_eq_ok h).2 ▸ List.suffix_refl _
    · exact (map_pair_eq_ok h).2 ▸ List.suffix_refl _

theorem suffix_readOffset {s s' : Scan} {direction : Direction} {rest rest' : List Token}
    (h : s.readOffset direction rest = .ok (s', rest')) : rest' <:+ rest := by
  unfold readOffset at h
  split at h
  · split at h
    · exact (map_pair_eq_ok h).2 ▸ List.suffix_cons _ _
    · split at h
      · split at h
        · exact (map_pair_eq_ok h).2 ▸ ⟨[_, _, _], rfl⟩
        · exact (map_pair_eq_ok h).2 ▸ List.suffix_cons _ _
      · simp at h
  · simp at h

/-- **Each step takes tokens off the front** and leaves the others as they are. -/
theorem suffix_step {lenient : Bool} {s s' : Scan} {token : Token} {rest rest' : List Token}
    (h : step lenient s token rest = .ok (s', rest')) : rest' <:+ rest := by
  unfold step at h
  split at h
  case h_1 => exact suffix_readNumber h
  case h_2 =>
    split at h
    · simp only [Except.ok.injEq, Prod.mk.injEq] at h
      exact h.2 ▸ List.suffix_refl _
    · split at h <;> simp only [Except.ok.injEq, Prod.mk.injEq, reduceCtorEq] at h
      exact h.2 ▸ List.suffix_refl _
  case h_3 =>
    split at h
    · exact suffix_readOffset h
    · simp only [Except.ok.injEq, Prod.mk.injEq] at h
      exact h.2 ▸ List.suffix_refl _
  case h_4 =>
    split at h
    · exact suffix_readOffset h
    · simp at h
  case h_5 =>
    split at h
    · exact suffix_readOffset h
    · simp only [Except.ok.injEq, Prod.mk.injEq] at h
      exact h.2 ▸ List.suffix_refl _
  case h_6 =>
    simp only [Except.ok.injEq, Prod.mk.injEq] at h
    exact h.2 ▸ suffix_skipComment rest
  all_goals
    simp only [Except.ok.injEq, Prod.mk.injEq, reduceCtorEq] at h
    try exact h.2 ▸ List.suffix_refl _

/-- Reads all tokens, each with the scan that those before it left. -/
def run (lenient : Bool) (s : Scan) : List Token → Except Error Scan
  | [] => .ok s
  | token :: rest =>
    match _h : step lenient s token rest with
    | .error e => .error e
    | .ok (s', rest') => run lenient s' rest'
termination_by tokens => tokens.length
decreasing_by
  have := (suffix_step _h).length_le
  simp only [List.length_cons]
  omega

end Scan
end DateText
end Interchange
