/-
# The order of dates and the range of the calendar

Calendar fields written from the year down to the millisecond compare like the instants they name:
the first field that differs decides.  The years of the calendar are therefore one unbroken stretch
of milliseconds, from `firstMillis` to `lastMillis`.

* `toMillis_lt_iff`: the order of valid dates with times is the lexicographic order of their fields;
* `ofMillis?_eq_some_iff`: the calendar has a date exactly for the milliseconds of its stretch.
-/
import Mathlib.Data.List.Lex
import Mathlib.Order.Lattice
import Interchange.Proofs.Calendar.Succession

namespace Interchange
namespace Calendar

/-! ## 1. Dates -/

theorem daysBeforeMonth_add_le (year : Int) {a b : Nat} (h : a < b) :
    daysBeforeMonth year a + monthLength year a ≤ daysBeforeMonth year b := by
  induction b with
  | zero => omega
  | succ b ih =>
    have hb := daysBeforeMonth_succ year b
    rcases Nat.lt_succ_iff_lt_or_eq.mp h with hlt | rfl
    · have := ih hlt
      omega
    · omega

namespace Date

/-- A valid date lies between the first day of its year and that of the next. -/
theorem dayNumber_bounds {d : Date} (h : d.Valid) :
    daysBeforeYear d.year ≤ d.dayNumber ∧ d.dayNumber < daysBeforeYear (d.year + 1) := by
  have hyear : yearOf d.dayNumber = d.year := congrArg Date.year (ofDayNumber_dayNumber h)
  exact yearOf_eq_iff.mp hyear

theorem eq_of_fields {d e : Date} (hyear : d.year = e.year) (hmonth : d.month = e.month)
    (hday : d.day = e.day) : d = e := by
  obtain ⟨year, month, day⟩ := d
  obtain ⟨year', month', day'⟩ := e
  simp only at hyear hmonth hday
  rw [hyear, hmonth, hday]

theorem dayNumber_lt {d e : Date} (hd : d.Valid) (he : e.Valid)
    (h : d.year < e.year ∨ d.year = e.year ∧
      (d.month < e.month ∨ d.month = e.month ∧ d.day < e.day)) : d.dayNumber < e.dayNumber := by
  have hd1 := hd.2.1
  have hd2 := hd.2.2
  rcases h with hyear | ⟨hyear, hmonth | ⟨hmonth, hday⟩⟩
  · have h1 := (dayNumber_bounds hd).2
    have h2 := (dayNumber_bounds he).1
    have h3 := daysBeforeYear_le hyear
    have h4 := daysBeforeYear_succ e.year
    have h5 := daysBeforeYear_succ d.year
    omega
  · have := daysBeforeMonth_add_le d.year hmonth
    simp only [dayNumber, ← hyear]
    omega
  · simp only [dayNumber, ← hyear, ← hmonth]
    omega

end Date

/-! ## 2. Dates with times -/

namespace DateTime

/-- All fields from the year down to the millisecond, the coarser in front, so that lists of them
compare lexicographically as the fields do. -/
def parts (t : DateTime) : List Int :=
  [t.date.year, t.date.month, t.date.day, t.time.hour, t.time.minute, t.time.second,
    t.time.millisecond]

theorem eq_of_parts_eq {t u : DateTime} (h : t.parts = u.parts) : t = u := by
  obtain ⟨⟨y, m, d⟩, ⟨hh, mi, s, ms⟩⟩ := t
  obtain ⟨⟨y', m', d'⟩, ⟨hh', mi', s', ms'⟩⟩ := u
  simpa [parts, Int.natCast_inj, and_assoc] using h

theorem toMillis_lt_of_day {t u : DateTime} (ht : t.time.Valid)
    (h : t.date.dayNumber < u.date.dayNumber) : t.toMillis < u.toMillis := by
  have hlt := Time.toMillis_lt ht
  simp only [toMillis, millisPerDay] at *
  omega

/-- What is first in the order of the fields comes first. -/
theorem toMillis_lt_of_parts {t u : DateTime} (ht : t.Valid) (hu : u.Valid)
    (h : t.parts < u.parts) : t.toMillis < u.toMillis := by
  simp only [parts, List.cons_lt_cons_iff, Int.ofNat_lt, Int.natCast_inj] at h
  by_cases hdate : t.date = u.date
  · obtain ⟨h1, h2, h3, h4⟩ := ht.2
    simp only [hdate, Int.lt_irrefl, Nat.lt_irrefl, false_or, true_and] at h
    simp only [toMillis, hdate, Time.toMillis, millisPerHour, millisPerMinute, millisPerSecond]
    have hnil : ¬ ([] : List Int) < [] := List.lt_irrefl []
    simp only [hnil, and_false, or_false] at h
    omega
  · refine toMillis_lt_of_day ht.2 (Date.dayNumber_lt ht.1 hu.1 ?_)
    rcases h with h | ⟨h1, h | ⟨h2, h | ⟨h3, -⟩⟩⟩
    · exact .inl h
    · exact .inr ⟨h1, .inl h⟩
    · exact .inr ⟨h1, .inr ⟨h2, h⟩⟩
    · exact absurd (Date.eq_of_fields h1 h2 h3) hdate

/-- **Valid dates with times are ordered like their fields**, the greatest field first: a later day
outweighs any time of day, because the time is valid, and a later year or month any day. -/
theorem toMillis_lt_iff {t u : DateTime} (ht : t.Valid) (hu : u.Valid) :
    t.toMillis < u.toMillis ↔ t.parts < u.parts := by
  constructor
  · intro h
    rcases lt_trichotomy t.parts u.parts with hlt | heq | hgt
    · exact hlt
    · rw [eq_of_parts_eq heq] at h
      exact absurd h (Int.lt_irrefl _)
    · have := toMillis_lt_of_parts hu ht hgt
      omega
  · exact toMillis_lt_of_parts ht hu

end DateTime

/-! ## 3. The stretch of the calendar -/

/-- The first millisecond of the calendar.  With `lastMillis` it bounds what has fields; what is
read from a text may lie beyond by up to a day. -/
def firstMillis : Int := DateTime.toMillis ⟨⟨firstYear, 0, 1⟩, .midnight⟩

def lastMillis : Int := DateTime.toMillis ⟨⟨lastYear, 11, 31⟩, ⟨23, 59, 59, 999⟩⟩

theorem firstMillis_eq : firstMillis = -8334601228800000 := by decide +kernel

theorem lastMillis_eq : lastMillis = 8210266876799999 := by decide +kernel

theorem firstMillis_eq_year : firstMillis = daysBeforeYear firstYear * millisPerDay := by
  decide +kernel

theorem lastMillis_eq_year : lastMillis + 1 = daysBeforeYear (lastYear + 1) * millisPerDay := by
  decide +kernel

theorem hasYear_ofMillis_iff (ms : Int) :
    HasYear (DateTime.ofMillis ms).date.year ↔ firstMillis ≤ ms ∧ ms ≤ lastMillis := by
  have hyear := daysBeforeYear_yearOf (ms / millisPerDay)
  have hfirst := firstMillis_eq_year
  have hlast := lastMillis_eq_year
  simp only [DateTime.ofMillis, Date.ofDayNumber, HasYear, millisPerDay] at *
  generalize yearOf (ms / _) = year at *
  constructor
  · rintro ⟨h1, h2⟩
    have hl : daysBeforeYear firstYear ≤ daysBeforeYear year := by
      rcases Int.lt_or_eq_of_le h1 with h | rfl
      · have := daysBeforeYear_le h
        have := daysBeforeYear_succ firstYear
        omega
      · exact Int.le_refl _
    have hr : daysBeforeYear (year + 1) ≤ daysBeforeYear (lastYear + 1) := by
      have := daysBeforeYear_le (show year < lastYear + 1 by omega)
      exact this
    omega
  · intro h
    constructor
    · by_contra hlt
      have := daysBeforeYear_le (show year < firstYear by omega)
      omega
    · by_contra hlt
      have := daysBeforeYear_le (show lastYear < year by omega)
      omega

/-- **The calendar has a date exactly for the milliseconds of its stretch.**  Years are whole, so
that the first and the last of them bound the milliseconds, and nothing between is left out. -/
theorem ofMillis?_eq_some_iff {ms : Int} {t : DateTime} :
    DateTime.ofMillis? ms = some t ↔
      (firstMillis ≤ ms ∧ ms ≤ lastMillis) ∧ t = DateTime.ofMillis ms := by
  rw [← hasYear_ofMillis_iff]
  unfold DateTime.ofMillis?
  dsimp only
  split
  · next h => simp [h, eq_comm]
  · next h => simp [h]

end Calendar
end Interchange
