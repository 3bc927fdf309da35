/-
# Counting days one by one

The calendar names a day by a closed formula.  This file says what the formula computes without it:
`Date.next` is the rule by which dates follow each other, and `Date.IsDay` counts with that rule,
forwards and backwards, from 1970-01-01.

* `dayNumber_next`: the next date has the next number;
* `isDay_ofDayNumber`: the date of a number is the one that counting arrives at.
-/
import Mathlib.Data.Int.Init
import Mathlib.Tactic.IntervalCases
import Interchange.Calendar.DateTime

namespace Interchange
namespace Calendar

/-! ## 1. Months within a year -/

theorem total_take_succ : ∀ (lengths : List Nat) (month : Nat),
    total (lengths.take (month + 1)) = total (lengths.take month) + lengths[month]?.getD 0
  | [], month => by simp
  | length :: rest, 0 => by simp
  | length :: rest, month + 1 => by
    have ih := total_take_succ rest month
    simp only [List.take_succ_cons, total_cons, List.getElem?_cons_succ] at ih ⊢
    omega

theorem daysBeforeMonth_succ (year : Int) (month : Nat) :
    daysBeforeMonth year (month + 1) = daysBeforeMonth year month + monthLength year month :=
  total_take_succ (monthLengths year) month

theorem daysBeforeYear_succ_eq_december (year : Int) :
    daysBeforeYear (year + 1) =
      daysBeforeYear year + (daysBeforeMonth year 11 + monthLength year 11 : Nat) := by
  have h : daysBeforeMonth year 12 = total (monthLengths year) := rfl
  rw [← daysBeforeMonth_succ, h, total_monthLengths, daysBeforeYear_succ]
  split <;> rfl

theorem one_le_monthLength (year : Int) {month : Nat} (h : month < 12) :
    1 ≤ monthLength year month := by
  unfold monthLength monthLengths
  interval_cases month <;> simp
  split <;> omega

theorem monthLength_le (year : Int) (month : Nat) : monthLength year month ≤ 31 := by
  unfold monthLength
  rcases Nat.lt_or_ge month 12 with h | h
  · unfold monthLengths
    interval_cases month <;> simp
    split <;> omega
  · rw [List.getElem?_eq_none h]
    exact Nat.zero_le _

/-! ## 2. The next day -/

namespace Date

/-- The day after a date: in the same month, else the first of the next month, else the first of the
next year. -/
def next (d : Date) : Date :=
  if d.day < monthLength d.year d.month then ⟨d.year, d.month, d.day + 1⟩
  else if d.month < 11 then ⟨d.year, d.month + 1, 1⟩
  else ⟨d.year + 1, 0, 1⟩

theorem valid_next {d : Date} (h : d.Valid) : d.next.Valid := by
  obtain ⟨hm, h1, hd⟩ := h
  unfold next
  split
  · exact ⟨hm, by simp, by assumption⟩
  · split
    · next hlast =>
      have hmonth : d.month + 1 < 12 := by omega
      exact ⟨hmonth, Nat.le_refl 1, one_le_monthLength _ hmonth⟩
    · exact ⟨Nat.zero_lt_succ 11, Nat.le_refl 1, one_le_monthLength _ (Nat.zero_lt_succ 11)⟩

/-- **The next date has the next number**, within a month, at its end and at the end of a year: this
is all that the closed formula has to get right. -/
theorem dayNumber_next {d : Date} (h : d.Valid) : d.next.dayNumber = d.dayNumber + 1 := by
  obtain ⟨year, month, day⟩ := d
  obtain ⟨hm, h1, hd⟩ := h
  simp only at hm h1 hd
  unfold next
  split
  · simp only [dayNumber]
    omega
  · next hlast =>
    simp only at hlast
    split
    · have := daysBeforeMonth_succ year month
      simp only [dayNumber]
      omega
    · next hdec =>
      simp only at hdec
      obtain rfl : month = 11 := by omega
      have hfirst : daysBeforeMonth (year + 1) 0 = 0 := rfl
      have := daysBeforeYear_succ_eq_december year
      simp only [dayNumber, hfirst]
      omega

theorem ofDayNumber_succ (n : Int) : ofDayNumber (n + 1) = (ofDayNumber n).next := by
  have hv := valid_ofDayNumber n
  have hn := dayNumber_next hv
  rw [dayNumber_ofDayNumber] at hn
  rw [← hn, ofDayNumber_dayNumber (valid_next hv)]

/-! ## 3. Counting -/

/-- `IsDay n d`: counting days from 1970-01-01, which is day 0, the date `d` is day `n`.  Backwards
a step is the one whose successor is there already, so the two directions use one rule. -/
inductive IsDay : Int → Date → Prop
  | epoch : IsDay 0 ⟨1970, 0, 1⟩
  | next {n : Int} {d : Date} : IsDay n d → IsDay (n + 1) d.next
  | previous {n : Int} {d : Date} : d.Valid → IsDay (n + 1) d.next → IsDay n d

/-- **Counting arrives at the date of each number**, forwards by induction and backwards by the same
rule read the other way. -/
theorem isDay_ofDayNumber (n : Int) : IsDay n (ofDayNumber n) := by
  induction n using Int.induction_on with
  | zero => exact .epoch
  | succ n ih =>
    rw [ofDayNumber_succ]
    exact .next ih
  | pred n ih =>
    refine .previous (valid_ofDayNumber _) ?_
    rw [← ofDayNumber_succ, Int.sub_add_cancel]
    exact ih

/-- The last day of February in three kinds of years. -/
example : (Date.mk 2023 1 28).next = ⟨2023, 2, 1⟩ ∧ (Date.mk 2000 1 28).next = ⟨2000, 1, 29⟩ ∧
    (Date.mk (-100) 1 28).next = ⟨-100, 2, 1⟩ := by decide

end Date
end Calendar
end Interchange
