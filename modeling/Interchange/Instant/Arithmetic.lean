/-
# Calendar arithmetic on instants

Instants are built from calendar components, moved by units of a calendar part, and cut back to the
start of a part.  Years and months follow the calendar; days and smaller parts are plain lengths of
time.  Components that are out of range carry into the next larger one.

Every operation leaves the empty instant empty.

`ofComponents` is `create` with its `compose`, `add` and `addMonths` are `add` and `add_months`,
`startOf` and `truncateTo` are `fix` and `truncate_to`.  Sums and products are those of doubles, in
the order in which they are written there, since each rounds.

The narrow integers on the way are left out.  A year that overflows 32 bits, or a number of months
that does not fit the calendar library's count of them, clears the instant as any year beyond the
calendar does; `HasYear` refuses them all.
-/
import Interchange.Instant.Basic

namespace Interchange
namespace Instant

open Calendar

/-! ## 1. Building from components -/

/-- Calendar components, each in 32 bits.  The month counts from 0; none needs to be in range. -/
structure Components where
  year : Int32
  month : Int32
  day : Int32
  hour : Int32
  minute : Int32
  second : Int32
  millisecond : Int32
  deriving DecidableEq

/-- So many lengths of time, as milliseconds.  Of a day, an hour, a minute and a second the product
is exact for every count. -/
def span (count : Int32) (unit : Nat) : Double := Double.ofInt count.toInt * Double.ofInt unit

/-- The instant of some components: the start of the month, moved by the other components; empty
when the calendar does not have the year in which that month lies.  Only the month carries by the
calendar.  The other components are lengths of time and may lead beyond its last year. -/
def ofComponents (c : Components) : Instant :=
  let year := c.year.toInt + c.month.toInt / 12
  let month := (c.month.toInt % 12).toNat
  if HasYear year then
    ⟨Double.ofInt (DateTime.toMillis ⟨⟨year, month, 1⟩, .midnight⟩) +
      (Double.ofInt c.day.toInt - Double.ofInt 1) * Double.ofInt millisPerDay +
      span c.hour millisPerHour + span c.minute millisPerMinute + span c.second millisPerSecond +
      Double.ofInt c.millisecond.toInt⟩
  else empty

/-! ## 2. Moving -/

/-- A part of a calendar date and time, down to the second. -/
inductive Part where
  | year | month | day | hour | minute | second
  deriving DecidableEq

/-- Where no part is named, seconds are meant: `add_seconds` adds the default part. -/
instance : Inhabited Part := ⟨.second⟩

/-- The instant moved by whole months, its day moved back to the last of the month where that is
shorter.  The part of a millisecond that the calendar does not see is kept.  The instant becomes
empty when the calendar does not have its year or the new one. -/
def addMonths (x : Instant) (months : Int) : Instant :=
  match x.dateTime? with
  | none => empty
  | some t =>
    let date := t.date.addMonths months
    if HasYear date.year then
      ⟨Double.ofInt (DateTime.toMillis ⟨date, t.time⟩) + (x.millis - x.millis.floor)⟩
    else empty

/-- The instant moved by so many units of a part.  Years are twelve months each, days have no
calendar: an instant without fields can be moved by days. -/
def add (x : Instant) (count : Int32) (part : Part) : Instant :=
  if x.isEmpty then x
  else
    match part with
    | .year => x.addMonths (count.toInt * 12)
    | .month => x.addMonths count.toInt
    | .day => ⟨x.millis + span count millisPerDay⟩
    | .hour => ⟨x.millis + span count millisPerHour⟩
    | .minute => ⟨x.millis + span count millisPerMinute⟩
    | .second => ⟨x.millis + span count millisPerSecond⟩

/-! ## 3. Cutting back -/

/-- The last multiple of a length of time that is not after the instant, also before the epoch. -/
def truncateTo (x : Instant) (unit : Nat) : Instant :=
  ⟨x.millis - x.millis.remEuclid (Double.ofInt unit)⟩

/-- The start of the month of a date, or of its year. -/
def firstDay (part : Part) (d : Date) : Date := ⟨d.year, if part = .year then 0 else d.month, 1⟩

/-- The start of the year, month, day, hour, minute or second that contains the instant.  The first
two need the calendar and clear an instant beyond it, the others do not. -/
def startOf (x : Instant) (part : Part) : Instant :=
  if x.isEmpty then x
  else
    match part with
    | .year | .month =>
      match x.dateTime? with
      | none => empty
      | some t => ofDateTime ⟨firstDay part t.date, .midnight⟩
    | .day => x.truncateTo millisPerDay
    | .hour => x.truncateTo millisPerHour
    | .minute => x.truncateTo millisPerMinute
    | .second => x.truncateTo millisPerSecond

/-- Day 0 of March, the end of January a month later, and midnight before the epoch. -/
example :
    ofComponents ⟨2024, 2, 0, 0, 0, 0, 0⟩ = ofComponents ⟨2024, 1, 29, 0, 0, 0, 0⟩ ∧
    (ofComponents ⟨2021, 0, 31, 10, 30, 0, 0⟩).add 1 .month =
      ofComponents ⟨2021, 1, 28, 10, 30, 0, 0⟩ ∧
    (ofComponents ⟨1969, 11, 31, 23, 59, 59, 999⟩).startOf .day =
      ofComponents ⟨1969, 11, 31, 0, 0, 0, 0⟩ := by decide +kernel

end Instant
end Interchange
