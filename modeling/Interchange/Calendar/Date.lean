/-
# The proleptic Gregorian calendar

Days are counted from 1970-01-01, which has number 0, and are named by year, month and day.  Months
are counted from 0 and days of a month from 1.  The leap rule holds for all years, before the epoch
and before year 0 too.

Dates are taken from a calendar library, of which three things are used: the date of a year, month
and day (`from_ymd_opt`), its number of days from the epoch, and the move by months
(`checked_add_months` and `checked_sub_months`).  They are `Date.Valid`, `Date.dayNumber` and
`Date.addMonths`, on integers without a range; the range is a matter of `Calendar.HasYear`.

* `ofDayNumber_dayNumber`, `dayNumber_ofDayNumber`: numbers and valid dates correspond one to one;
* `valid_ofDayNumber`: the date of a number is valid;
* `yearOf_eq_iff`: the year of a day is the one whose days surround it.
-/
namespace Interchange
namespace Calendar

/-! ## 1. Years and months -/

/-- Every fourth year is a leap year, but of the full centuries only every fourth. -/
def isLeap (year : Int) : Bool := year % 4 = 0 && (year % 100 != 0 || year % 400 = 0)

/-- The sum of some lengths.  `List.sum` would do, but with the whole of Mathlib in scope it adds by
another instance. -/
def total (lengths : List Nat) : Nat := lengths.foldr (· + ·) 0

@[simp] theorem total_nil : total [] = 0 := rfl

@[simp] theorem total_cons (length : Nat) (rest : List Nat) :
    total (length :: rest) = length + total rest := rfl

def monthLengths (year : Int) : List Nat :=
  [31, if isLeap year then 29 else 28, 31, 30, 31, 30, 31, 31, 30, 31, 30, 31]

/-- The number of days of a month; there are none beyond December. -/
def monthLength (year : Int) (month : Nat) : Nat := (monthLengths year)[month]?.getD 0

/-- The number of the first day of a year: 365 days for each year and a leap day for each leap year
before, counted from the day that 1970 began. -/
def daysBeforeYear (year : Int) : Int :=
  365 * year + (year - 1) / 4 - (year - 1) / 100 + (year - 1) / 400 - 719527

/-- The days of a year before one of its months. -/
def daysBeforeMonth (year : Int) (month : Nat) : Nat := total ((monthLengths year).take month)

theorem daysBeforeYear_succ (year : Int) :
    daysBeforeYear (year + 1) = daysBeforeYear year + (if isLeap year then 366 else 365) := by
  unfold daysBeforeYear isLeap
  simp only [Bool.and_eq_true, Bool.or_eq_true, decide_eq_true_eq, bne_iff_ne, ne_eq]
  split <;> omega

theorem total_monthLengths (year : Int) :
    total (monthLengths year) = if isLeap year then 366 else 365 := by
  unfold monthLengths
  cases isLeap year <;> rfl

/-- Later years begin later. -/
theorem daysBeforeYear_le {a b : Int} (h : a < b) : daysBeforeYear (a + 1) ≤ daysBeforeYear b := by
  unfold daysBeforeYear
  omega

/-! ## 2. The year of a day -/

/-- The year of a day: the average length of a year gives an estimate that is at most one off. -/
def yearOf (day : Int) : Int :=
  let estimate := (day + 719528) * 400 / 146097
  if day < daysBeforeYear estimate then estimate - 1
  else if daysBeforeYear (estimate + 1) ≤ day then estimate + 1
  else estimate

/-- Four hundred years have 146097 days, and no year strays two days from that average. -/
theorem four_hundred_mul_daysBeforeYear (year : Int) :
    146097 * year - 396 ≤ 400 * (daysBeforeYear year + 719528) ∧
      400 * (daysBeforeYear year + 719528) ≤ 146097 * year + 699 := by
  unfold daysBeforeYear
  omega

theorem daysBeforeYear_yearOf (day : Int) :
    daysBeforeYear (yearOf day) ≤ day ∧ day < daysBeforeYear (yearOf day + 1) := by
  have he : 146097 * ((day + 719528) * 400 / 146097) ≤ (day + 719528) * 400 ∧
      (day + 719528) * 400 < 146097 * ((day + 719528) * 400 / 146097) + 146097 := by
    omega
  unfold yearOf
  dsimp only
  generalize (day + 719528) * 400 / 146097 = estimate at he
  split
  · have := four_hundred_mul_daysBeforeYear (estimate - 1)
    rw [Int.sub_add_cancel]
    omega
  · split
    · have := four_hundred_mul_daysBeforeYear (estimate + 1 + 1)
      omega
    · omega

/-- **The year of a day is the one whose days surround it.** -/
theorem yearOf_eq_iff {day year : Int} :
    yearOf day = year ↔ daysBeforeYear year ≤ day ∧ day < daysBeforeYear (year + 1) := by
  constructor
  · rintro rfl
    exact daysBeforeYear_yearOf day
  · intro h
    have hy := daysBeforeYear_yearOf day
    rcases Int.lt_trichotomy (yearOf day) year with hlt | heq | hgt
    · have := daysBeforeYear_le hlt
      omega
    · exact heq
    · have := daysBeforeYear_le hgt
      omega

/-! ## 3. The month of a day -/

/-- Walks down a list of lengths: which of them a day falls into, and the days before it there. -/
def locate : List Nat → Nat → Nat × Nat
  | [], day => (0, day)
  | length :: rest, day =>
    if day < length then (0, day)
    else ((locate rest (day - length)).1 + 1, (locate rest (day - length)).2)

theorem locate_spec {lengths : List Nat} {day : Nat} (h : day < total lengths) :
    (locate lengths day).1 < lengths.length ∧
      (locate lengths day).2 < lengths[(locate lengths day).1]?.getD 0 ∧
      total (lengths.take (locate lengths day).1) + (locate lengths day).2 = day := by
  induction lengths generalizing day with
  | nil => simp at h
  | cons length rest ih =>
    unfold locate
    split
    · next hd => simpa using hd
    · next hd =>
      rw [total_cons] at h
      have hr := @ih (day - length) (by omega)
      refine ⟨by simpa using hr.1, by simpa using hr.2.1, ?_⟩
      rw [List.take_succ_cons, total_cons]
      omega

theorem locate_total_take {lengths : List Nat} {month day : Nat}
    (h : day < lengths[month]?.getD 0) :
    locate lengths (total (lengths.take month) + day) = (month, day) := by
  induction lengths generalizing month with
  | nil => simp at h
  | cons length rest ih =>
    cases month with
    | zero =>
      have hd : day < length := by simpa using h
      simp [locate, hd]
    | succ month =>
      have hr := @ih month (by simpa using h)
      unfold locate
      rw [List.take_succ_cons, total_cons, if_neg (by omega),
        show length + total (rest.take month) + day - length = total (rest.take month) + day by
          omega,
        hr]

theorem total_take_add_le (lengths : List Nat) (month : Nat) :
    total (lengths.take month) + lengths[month]?.getD 0 ≤ total lengths := by
  induction lengths generalizing month with
  | nil => simp
  | cons length rest ih =>
    cases month with
    | zero => simp
    | succ month =>
      have := ih month
      simp only [List.take_succ_cons, total_cons, List.getElem?_cons_succ]
      omega

/-! ## 4. Dates -/

/-- A day named by year, month (0 is January) and day of the month (1 is the first). -/
structure Date where
  year : Int
  month : Nat
  day : Nat
  deriving DecidableEq

namespace Date

/-- The day exists in its month. -/
def Valid (d : Date) : Prop := d.month < 12 ∧ 1 ≤ d.day ∧ d.day ≤ monthLength d.year d.month

instance (d : Date) : Decidable d.Valid := inferInstanceAs (Decidable (_ ∧ _ ∧ _))

/-- The number of a day, counted from 1970-01-01 and negative before. -/
def dayNumber (d : Date) : Int :=
  daysBeforeYear d.year + (daysBeforeMonth d.year d.month + (d.day - 1) : Nat)

/-- The day with a number. -/
def ofDayNumber (n : Int) : Date :=
  let year := yearOf n
  let place := locate (monthLengths year) (n - daysBeforeYear year).toNat
  ⟨year, place.1, place.2 + 1⟩

theorem lt_total_monthLengths (n : Int) :
    (n - daysBeforeYear (yearOf n)).toNat < total (monthLengths (yearOf n)) := by
  have h := daysBeforeYear_yearOf n
  rw [daysBeforeYear_succ] at h
  rw [total_monthLengths]
  split <;> simp_all <;> omega

/-- The date of a number is valid. -/
theorem valid_ofDayNumber (n : Int) : (ofDayNumber n).Valid := by
  have h := locate_spec (lt_total_monthLengths n)
  refine ⟨h.1, by simp [ofDayNumber], ?_⟩
  exact h.2.1

/-- **A number comes back from its date.** -/
theorem dayNumber_ofDayNumber (n : Int) : (ofDayNumber n).dayNumber = n := by
  have h := (locate_spec (lt_total_monthLengths n)).2.2
  have hy := (daysBeforeYear_yearOf n).1
  simp only [dayNumber, ofDayNumber, daysBeforeMonth, Nat.add_sub_cancel]
  omega

/-- **A valid date comes back from its number.** -/
theorem ofDayNumber_dayNumber {d : Date} (h : d.Valid) : ofDayNumber d.dayNumber = d := by
  obtain ⟨year, month, day⟩ := d
  obtain ⟨hm, h1, hd⟩ := h
  simp only at hm h1 hd
  unfold monthLength at hd
  have hsum := total_take_add_le (monthLengths year) month
  have hyear : yearOf (dayNumber ⟨year, month, day⟩) = year := by
    apply yearOf_eq_iff.2
    rw [daysBeforeYear_succ]
    rw [total_monthLengths] at hsum
    simp only [dayNumber, daysBeforeMonth]
    by_cases hleap : isLeap year = true
    · rw [if_pos hleap] at hsum ⊢
      omega
    · rw [if_neg hleap] at hsum ⊢
      omega
  unfold ofDayNumber
  dsimp only
  rw [hyear]
  have hn : (dayNumber ⟨year, month, day⟩ - daysBeforeYear year).toNat =
      total ((monthLengths year).take month) + (day - 1) := by
    simp only [dayNumber, daysBeforeMonth]
    omega
  rw [hn, locate_total_take (by omega)]
  simp only [Date.mk.injEq, true_and]
  omega

/-- The day of the week, 0 for Sunday; the epoch was a Thursday. -/
def weekday (d : Date) : Nat := ((d.dayNumber + 4) % 7).toNat

end Date

/-! ## 5. Months on one line -/

/-- The place of a month on the line of all months; month 0 of year 0 has number 0. -/
def Date.monthNumber (d : Date) : Int := 12 * d.year + d.month

/-- The date moved by whole months; the day is drawn in to the end of a shorter month. -/
def Date.addMonths (d : Date) (months : Int) : Date :=
  let year := (d.monthNumber + months) / 12
  let month := ((d.monthNumber + months) % 12).toNat
  ⟨year, month, min d.day (monthLength year month)⟩

/-- The epoch, the day before year 0, a leap day, and the end of January a month later. -/
example : Date.ofDayNumber 0 = ⟨1970, 0, 1⟩ ∧ Date.ofDayNumber (-719529) = ⟨-1, 11, 31⟩ ∧
    (Date.mk 2024 1 29).dayNumber = 19782 ∧ (Date.mk 1994 10 15).weekday = 2 ∧
    (Date.mk 2021 0 31).addMonths 1 = ⟨2021, 1, 28⟩ := by decide

end Calendar
end Interchange
