/-
# The calendar fields of an instant

An instant has calendar fields exactly while its greatest whole millisecond lies in the calendar's
stretch.  The fields are the date that counting days arrives at, with a 24-hour clock time, and
composing them gives the whole millisecond back.

* `dateTime?_eq_some_iff`: when there are fields, and which;
* `dateTime?_fields`: all that they satisfy.
-/
import Interchange.Proofs.Instant.Composition

namespace Interchange

open Calendar

def Calendar.DateTime.components (t : DateTime) : Instant.Components :=
  ⟨.ofInt t.date.year, .ofInt t.date.month, .ofInt t.date.day, .ofInt t.time.hour,
    .ofInt t.time.minute, .ofInt t.time.second, .ofInt t.time.millisecond⟩

namespace Instant

/-! ## 1. When there are fields -/

/-- **An instant has the fields of its whole millisecond**, while the calendar has that one. -/
theorem dateTime?_eq_some_iff {x : Instant} {t : DateTime} {ms : Int}
    (hx : x.millis.floor? = some ms) :
    x.dateTime? = some t ↔ (firstMillis ≤ ms ∧ ms ≤ lastMillis) ∧ t = DateTime.ofMillis ms := by
  rw [dateTime?, hx, Option.bind_some, ofMillis?_eq_some_iff]

theorem dateTime?_eq_none_iff {x : Instant} {ms : Int} (hx : x.millis.floor? = some ms) :
    x.dateTime? = none ↔ ¬(firstMillis ≤ ms ∧ ms ≤ lastMillis) := by
  rw [Option.eq_none_iff_forall_ne_some]
  constructor
  · exact fun hnone hrange => hnone _ ((dateTime?_eq_some_iff hx).mpr ⟨hrange, rfl⟩)
  · exact fun hrange t ht => hrange ((dateTime?_eq_some_iff hx).mp ht).1

theorem dateTime?_of_whole {x : Instant} {ms : Int} (hx : x.millis.toInt? = some ms)
    (hrange : firstMillis ≤ ms ∧ ms ≤ lastMillis) : x.dateTime? = some (.ofMillis ms) :=
  (dateTime?_eq_some_iff (Double.floor?_of_toInt? hx)).mpr ⟨hrange, rfl⟩

/-- **A date and time of the calendar is at its whole millisecond**, and the instant has those
fields. -/
theorem toInt?_ofDateTime {t : DateTime} (ht : t.Valid) (hy : HasYear t.date.year) :
    (ofDateTime t).millis.toInt? = some t.toMillis ∧ (ofDateTime t).dateTime? = some t := by
  have hinside := DateTime.toMillis_bounds ht hy
  have hmillis : (ofDateTime t).millis.toInt? = some t.toMillis :=
    Double.toInt?_ofInt (fits_millis hinside)
  refine ⟨hmillis, ?_⟩
  rw [dateTime?_of_whole hmillis hinside, DateTime.ofMillis_toMillis ht]

/-! ## 2. Fields as components -/

/-- Valid fields in a year of the calendar are components of 32 bits that sum up to the
milliseconds. -/
theorem total_components {t : DateTime} (ht : t.Valid) (hy : HasYear t.date.year) :
    t.components.monthStart = ⟨t.date.year, t.date.month, 1⟩ ∧
      t.components.total = t.toMillis := by
  obtain ⟨⟨year, month, day⟩, ⟨hour, minute, second, millisecond⟩⟩ := t
  obtain ⟨⟨hm, hd1, hd2⟩, hhour, hminute, hsecond, hmillisecond⟩ := ht
  simp only at hm hd1 hd2 hhour hminute hsecond hmillisecond hy
  have hday : monthLength year month ≤ 31 := monthLength_le year month
  have h32 {n : Int} (h : -0x80000000 ≤ n ∧ n < 0x80000000) : (Int32.ofInt n).toInt = n :=
    Int32.toInt_ofInt_of_le h.1 h.2
  have h1 : (Int32.ofInt year).toInt = year := by
    simp only [HasYear, firstYear, lastYear] at hy
    exact h32 (by omega)
  have h2 : (Int32.ofInt month).toInt = month := h32 (by omega)
  have h3 : (Int32.ofInt day).toInt = day := h32 (by omega)
  have h4 : (Int32.ofInt hour).toInt = hour := h32 (by omega)
  have h5 : (Int32.ofInt minute).toInt = minute := h32 (by omega)
  have h6 : (Int32.ofInt second).toInt = second := h32 (by omega)
  have h7 : (Int32.ofInt millisecond).toInt = millisecond := h32 (by omega)
  have hyear : year + (month : Int) / 12 = year := by omega
  have hmonth : ((month : Int) % 12).toNat = month := by omega
  have hstart : (DateTime.components ⟨⟨year, month, day⟩,
      ⟨hour, minute, second, millisecond⟩⟩).monthStart = ⟨year, month, 1⟩ := by
    simp only [DateTime.components, Components.monthStart, h1, h2, hyear, hmonth]
  refine ⟨hstart, ?_⟩
  unfold Components.total
  rw [hstart]
  simp only [DateTime.components, h3, h4, h5, h6, h7, DateTime.toMillis, Time.midnight,
    Time.toMillis, Date.dayNumber, millisPerDay, millisPerHour, millisPerMinute, millisPerSecond]
  push_cast
  omega

/-! ## 3. What the fields satisfy -/

/-- **The fields of a finite instant.**  They exist exactly within the calendar's stretch.  They are
a day of the calendar, found by counting days from the epoch, and a clock time; composing them gives
the whole millisecond exactly; the weekday goes round with the days; and instants are ordered like
their fields. -/
theorem dateTime?_fields {x : Instant} {ms : Int} (hx : x.millis.floor? = some ms) :
    (x.dateTime?.isSome = true ↔ firstMillis ≤ ms ∧ ms ≤ lastMillis) ∧
    ∀ t, x.dateTime? = some t →
      t.Valid ∧ Date.IsDay (ms / millisPerDay) t.date ∧
      (ofComponents t.components).millis.toInt? = some ms ∧
      (t.date.weekday : Int) = (ms / millisPerDay + 4) % 7 ∧
      ∀ (y : Instant) (ms' : Int) (u : DateTime), y.millis.floor? = some ms' →
        y.dateTime? = some u → (ms < ms' ↔ t.parts < u.parts) := by
  constructor
  · rw [Option.isSome_iff_exists]
    constructor
    · rintro ⟨t, ht⟩
      exact ((dateTime?_eq_some_iff hx).mp ht).1
    · exact fun h => ⟨_, (dateTime?_eq_some_iff hx).mpr ⟨h, rfl⟩⟩
  · intro t ht
    obtain ⟨hrange, rfl⟩ := (dateTime?_eq_some_iff hx).mp ht
    have hvalid := DateTime.valid_ofMillis ms
    have hyear := (hasYear_ofMillis_iff ms).mpr hrange
    obtain ⟨hstart, htotal⟩ := total_components hvalid hyear
    rw [DateTime.toMillis_ofMillis] at htotal
    refine ⟨hvalid, Date.isDay_ofDayNumber _, ?_, ?_, ?_⟩
    · have hsum := toInt?_ofComponents (c := (DateTime.ofMillis ms).components)
        (by rw [hstart]; exact hyear) (by rw [htotal]; exact hrange)
      rwa [htotal] at hsum
    · have hday : (DateTime.ofMillis ms).date.dayNumber = ms / millisPerDay :=
        Date.dayNumber_ofDayNumber _
      rw [Date.weekday, hday]
      omega
    · intro y ms' u hy hu
      obtain ⟨-, rfl⟩ := (dateTime?_eq_some_iff hy).mp hu
      rw [← DateTime.toMillis_lt_iff hvalid (DateTime.valid_ofMillis ms'),
        DateTime.toMillis_ofMillis, DateTime.toMillis_ofMillis]

/-- Half a millisecond before the epoch. -/
theorem dateTime?_fields_before_epoch :
    let x : Instant := ⟨Double.ofRatio true 1 2⟩
    let t : DateTime := ⟨⟨1969, 11, 31⟩, ⟨23, 59, 59, 999⟩⟩
    x.millis.floor? = some (-1) ∧ x.dateTime? = some t ∧ Date.IsDay (-1) t.date ∧
      (ofComponents t.components).millis.toInt? = some (-1) ∧ t.date.weekday = 3 := by
  intro x t
  have hx : x.millis.floor? = some (-1) := by decide +kernel
  have ht : x.dateTime? = some t := by decide +kernel
  obtain ⟨-, hday, hms, -, -⟩ := (dateTime?_fields hx).2 t ht
  exact ⟨hx, ht, hday, hms, by decide +kernel⟩

end Instant
end Interchange
