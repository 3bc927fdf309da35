/-
# Reading an instant from text

The collected numbers become a year, a month and a day; with the clock, the half of the day and the
zone offset they become an instant.  Every part is checked before the calendar is asked, so an
impossible date or time is an error and never a neighbouring one.

`read` is strict.  `Instant.parse` also takes texts with words that name no part of a date, and
gives the empty instant for everything else.

`Scan.calendarDay` is `calendar`, with `is_year` and `expand_year` as `Quantity.isYear` and
`Quantity.fullYear`; `Scan.millis`, `check` and `readMillis` are `millis`, `check` and `read_date`;
`Instant.read`, `parse` and `parseBytes` are `try_parse`, `parse` and `parse_bytes`.

The checks of `millis` are kept in their order, because the first that fails names the error: the
calendar's parts, the hour of half a day, then year, month, day, hour, minute and second, then the
date as a whole, which is blamed on the day, and the time as a whole.  The zone offset is subtracted
behind the last of them.
-/
import Interchange.DateText.Scan
import Interchange.Text.Buffer

namespace Interchange
namespace DateText

open Calendar

/-! ## 1. Year, month and day -/

/-- Whether a number can only be a year: it is signed, wide, or too large for a day.  Fifteen is
none, so that in front of two numbers it is taken for a month and rejected. -/
def Quantity.isYear (q : Quantity) : Bool :=
  q.negative || decide (3 ≤ q.digits) || decide (31 < q.value)

/-- The year of a number: one or two digits without a sign are a year from 1950 to 2049.  The width
decides and not the value, so "0094" is the year 94. -/
def Quantity.fullYear (q : Quantity) : Int :=
  if q.negative = false ∧ q.digits ≤ 2 then
    if q.value < 50 then 2000 + q.value else 1900 + q.value
  else q.value

/-- A year, a month counted from 1, and a day; nothing is in range yet. -/
structure CalendarDay where
  year : Int
  month : Int
  day : Int
  deriving DecidableEq

namespace Scan

/-- The calendar day that the collected numbers name.  With a month name, a number that can only be
a year is the year and the other one the day, else the day comes first.  Without one, the year is
first if it can only be a year, else last.  The year in front of two numbers is the one that is
taken as it stands, without its century. -/
def calendarDay (s : Scan) : Except Error CalendarDay :=
  match s.month, s.numbers with
  | some month, [a, b] =>
    if a.isYear then .ok ⟨a.fullYear, month, b.value⟩ else .ok ⟨b.fullYear, month, a.value⟩
  | some _, [a] => if a.isYear then .error (.missingField .day) else .error (.missingField .year)
  | some _, [] => .error (.missingField .day)
  | some _, numbers =>
    .error (.unexpectedToken (Decimal.signed ((numbers.getLast?.map (·.value)).getD 0)))
  | none, [a, b, c] =>
    if a.isYear then .ok ⟨a.value, b.value, c.value⟩ else .ok ⟨c.fullYear, a.value, b.value⟩
  | none, [] => .error (.missingField .date)
  | none, [_] => .error (.missingField .month)
  | none, _ => .error (.missingField .day)

/-! ## 2. The clock -/

/-- The hour on a 24-hour clock: with a half of the day, noon and midnight are its hour twelve. -/
def hour24 : Option Meridiem → Nat → Except Error Nat
  | none, hour => .ok hour
  | some half, hour =>
    if 1 ≤ hour ∧ hour ≤ 12 then
      match half with
      | .am => .ok (hour % 12)
      | .pm => .ok (hour % 12 + 12)
    else .error (.fieldOutOfRange .hour hour)

/-- Succeeds when a part is within its range, and names the part when not. -/
def check (field : Field) (value low high : Int) : Except Error Unit :=
  if low ≤ value ∧ value ≤ high then .ok () else .error (.fieldOutOfRange field value)

/-- The clock as it is written, or midnight. -/
def clockOrMidnight (s : Scan) : Clock := s.clock.getD ⟨0, 0, 0, 0⟩

/-! ## 3. The instant -/

/-- The milliseconds since the epoch that the collected parts denote.  The branch of
`unrepresentable` is never taken, because the parts of a time have been checked one by one; the
branch behind it is that of a day the month does not have, and of a year beyond the calendar. -/
def millis (s : Scan) : Except Error Int := do
  let day ← s.calendarDay
  let clock := s.clockOrMidnight
  let hour ← hour24 s.meridiem clock.hour
  check .year day.year (-0x80000000) 0x7FFFFFFF
  check .month day.month 1 12
  check .day day.day 1 31
  check .hour hour 0 23
  check .minute clock.minute 0 59
  check .second clock.second 0 59
  let date : Date := ⟨day.year, (day.month - 1).toNat, day.day.toNat⟩
  let time : Time := ⟨hour, clock.minute, clock.second, clock.millisecond⟩
  if date.Valid ∧ HasYear date.year then
    if time.Valid then
      return DateTime.toMillis ⟨date, time⟩ - s.offsetMinutes.getD 0 * millisPerMinute
    else throw .unrepresentable
  else throw (.fieldOutOfRange .day day.day)

end Scan

/-- The milliseconds since the epoch that a text denotes, for either reading. -/
def readMillis (lenient : Bool) (text : List Char) : Except Error Int :=
  if text.all isBlank then .error .empty
  else Scan.run lenient .initial (tokens true text) >>= Scan.millis

end DateText

namespace Instant

/-- The instant that a text denotes; every word must be part of the date.  The milliseconds are a
double: no count that is read is too large to be one exactly. -/
def read (text : List Char) : Except DateText.Error Instant :=
  (DateText.readMillis false text).map (fun ms => ofMillis (Double.ofInt ms))

/-- The instant that a text denotes; unknown words are skipped, and where there is no date the
instant is empty. -/
def parse (text : List Char) : Instant :=
  match DateText.readMillis true text with
  | .ok ms => ofMillis (Double.ofInt ms)
  | .error _ => empty

/-- The instant that the text in a window of a byte buffer denotes: so many bytes, or those before
the first zero byte, with everything that is no UTF-8 replaced. -/
def parseBytes (buffer : List UInt8) (length : Option Nat) : Instant :=
  parse (Buffer.decode (Buffer.window buffer length))

/-- A signed year, a 12-hour clock with a comment, a zone, an unknown word, and a day that does not
exist. -/
example :
    (read "-0001-01-01 01:02:03".toList).toOption =
      some (ofDateTime ⟨⟨-1, 0, 1⟩, ⟨1, 2, 3, 0⟩⟩) ∧
    (read "11/15/94 8:12 PM (local)".toList).toOption =
      some (ofDateTime ⟨⟨1994, 10, 15⟩, ⟨20, 12, 0, 0⟩⟩) ∧
    (read "1994-11-15T16:12:31.5+08:00".toList).toOption =
      some (ofDateTime ⟨⟨1994, 10, 15⟩, ⟨8, 12, 31, 500⟩⟩) ∧
    (read "1994-11-15 today".toList).toOption = none ∧
    parse "1994-11-15 today".toList = ofDateTime ⟨⟨1994, 10, 15⟩, .midnight⟩ ∧
    (read "2021-02-30".toList).toOption = none := by decide +kernel

end Instant
end Interchange
