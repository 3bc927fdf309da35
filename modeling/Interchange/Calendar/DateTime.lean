/-
# Dates with a time of day

A `DateTime` is a calendar day and a clock time to the millisecond, without a zone.  Milliseconds
from 1970-01-01 00:00 and valid dates with valid times correspond one to one, before the epoch too,
where the day is found by rounding down.

The calendar covers whole years only, from -262143 to 262142.

`DateTime` is what `naive` gives for an instant, `toMillis` is `timestamp_millis`, and `ofMillis?`
is `from_timestamp_millis`.  The library that these belong to is not read here but followed in what
it documents: the proleptic Gregorian calendar without leap seconds.

* `ofMillis_toMillis`, `toMillis_ofMillis`, `valid_ofMillis`: the correspondence.
-/
import Interchange.Calendar.Date

namespace Interchange
namespace Calendar

/-! ## 1. Time of day -/

/-- A time of day on a 24-hour clock, without leap seconds. -/
structure Time where
  hour : Nat
  minute : Nat
  second : Nat
  millisecond : Nat
  deriving DecidableEq

def millisPerSecond : Nat := 1000

def millisPerMinute : Nat := 60000

def millisPerHour : Nat := 3600000

def millisPerDay : Nat := 86400000

namespace Time

def midnight : Time := ⟨0, 0, 0, 0⟩

/-- Each part is within its range. -/
def Valid (t : Time) : Prop :=
  t.hour < 24 ∧ t.minute < 60 ∧ t.second < 60 ∧ t.millisecond < 1000

instance (t : Time) : Decidable t.Valid := inferInstanceAs (Decidable (_ ∧ _ ∧ _ ∧ _))

def toMillis (t : Time) : Nat :=
  t.hour * millisPerHour + t.minute * millisPerMinute + t.second * millisPerSecond + t.millisecond

def ofMillis (n : Nat) : Time :=
  ⟨n / millisPerHour, n / millisPerMinute % 60, n / millisPerSecond % 60, n % millisPerSecond⟩

theorem toMillis_ofMillis (n : Nat) : (ofMillis n).toMillis = n := by
  simp only [toMillis, ofMillis, millisPerHour, millisPerMinute, millisPerSecond]
  omega

theorem valid_ofMillis {n : Nat} (h : n < millisPerDay) : (ofMillis n).Valid := by
  simp only [Valid, ofMillis, millisPerHour, millisPerMinute, millisPerSecond, millisPerDay] at *
  omega

theorem ofMillis_toMillis {t : Time} (h : t.Valid) : ofMillis t.toMillis = t := by
  obtain ⟨hour, minute, second, millisecond⟩ := t
  simp only [Valid] at h
  simp only [toMillis, ofMillis, millisPerHour, millisPerMinute, millisPerSecond, mk.injEq]
  omega

theorem toMillis_lt {t : Time} (h : t.Valid) : t.toMillis < millisPerDay := by
  simp only [Valid, toMillis, millisPerHour, millisPerMinute, millisPerSecond, millisPerDay] at *
  omega

end Time

/-! ## 2. Dates with times -/

/-- A calendar day and a time of day.  The month counts from 0, as in the fields of an instant. -/
structure DateTime where
  date : Date
  time : Time
  deriving DecidableEq

namespace DateTime

/-- Both the date and the time are valid. -/
def Valid (t : DateTime) : Prop := t.date.Valid ∧ t.time.Valid

/-- Milliseconds since the epoch; before it they are negative. -/
def toMillis (t : DateTime) : Int := t.date.dayNumber * millisPerDay + t.time.toMillis

/-- The date and time so many milliseconds after the epoch, in whatever year.  Division rounds down,
so a millisecond before the epoch is the last of the day before. -/
def ofMillis (ms : Int) : DateTime :=
  ⟨Date.ofDayNumber (ms / millisPerDay), Time.ofMillis (ms % millisPerDay).toNat⟩

/-- **Milliseconds come back from their date and time.** -/
theorem toMillis_ofMillis (ms : Int) : (ofMillis ms).toMillis = ms := by
  simp only [toMillis, ofMillis, Date.dayNumber_ofDayNumber, Time.toMillis_ofMillis, millisPerDay]
  omega

/-- The date and time of an instant are valid. -/
theorem valid_ofMillis (ms : Int) : (ofMillis ms).Valid := by
  refine ⟨Date.valid_ofDayNumber _, Time.valid_ofMillis ?_⟩
  simp only [millisPerDay]
  omega

/-- **A valid date and time come back from their milliseconds.** -/
theorem ofMillis_toMillis {t : DateTime} (h : t.Valid) : ofMillis t.toMillis = t := by
  have ht := Time.toMillis_lt h.2
  have hd : t.toMillis / millisPerDay = t.date.dayNumber := by
    simp only [toMillis, millisPerDay] at *
    omega
  have hm : (t.toMillis % millisPerDay).toNat = t.time.toMillis := by
    simp only [toMillis, millisPerDay] at *
    omega
  unfold ofMillis
  rw [hd, hm, Date.ofDayNumber_dayNumber h.1, Time.ofMillis_toMillis h.2]

end DateTime

/-! ## 3. The range of the calendar -/

/-- The first year of the calendar, all of it. -/
def firstYear : Int := -262143

/-- The last year of the calendar, all of it. -/
def lastYear : Int := 262142

/-- Whether the calendar has a year. -/
def HasYear (year : Int) : Prop := firstYear ≤ year ∧ year ≤ lastYear

instance (year : Int) : Decidable (HasYear year) := inferInstanceAs (Decidable (_ ∧ _))

/-- The date and time so many milliseconds after the epoch, if the calendar has that year. -/
def DateTime.ofMillis? (ms : Int) : Option DateTime :=
  let t := DateTime.ofMillis ms
  if HasYear t.date.year then some t else none

/-- The first millisecond of the calendar, the one before it, and the one before the epoch. -/
example :
    DateTime.ofMillis? (-8334601228800000) = some ⟨⟨-262143, 0, 1⟩, .midnight⟩ ∧
    DateTime.ofMillis? (-8334601228800001) = none ∧
    DateTime.ofMillis (-1) = ⟨⟨1969, 11, 31⟩, ⟨23, 59, 59, 999⟩⟩ := by decide

end Calendar
end Interchange
