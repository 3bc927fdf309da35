/-
# The start of a part

Cutting an instant back to the start of a part keeps the fields down to that part and puts all finer
ones to their start.  Years and months are cut back in the calendar, days and smaller parts by the
remainder of the count of milliseconds; but days begin at whole multiples of their length, also
before the epoch, so both lead to the same date and time.

* `le_startOf`: no later start of the part comes before the time;
* `startOf_eq`: both ways of cutting back are one;
* `startOf_startOf`: the coarser of two parts decides, in either order;
* `startOf_floor`: all that the start of a part satisfies.
-/
import Interchange.Proofs.Double.Truncation
import Interchange.Proofs.Instant.Moving
import Interchange.Proofs.Text.Runs

namespace Interchange

open Calendar

/-! ## 1. Fields and their starts -/

namespace Instant.Part

/-- How many fields, from the year on, reach down to a part: what cutting back to the part keeps. -/
def depth : Part → Nat
  | .year => 1
  | .month => 2
  | .day => 3
  | .hour => 4
  | .minute => 5
  | .second => 6

def coarser (p q : Part) : Part := if p.depth ≤ q.depth then p else q

theorem coarser_comm (p q : Part) : p.coarser q = q.coarser p := by
  cases p <;> cases q <;> rfl

theorem coarser_self (p : Part) : p.coarser p = p := if_pos (Nat.le_refl _)

end Instant.Part

open Instant (Part)

namespace Calendar.DateTime

/-- Where the fields start: the month with 0, the day with 1, and the time at midnight. -/
def starts : List Int := [0, 0, 1, 0, 0, 0, 0]

/-- All fields finer than a part are at their start: the instant is the first of its part. -/
def IsStart (t : DateTime) (part : Part) : Prop :=
  t.parts.drop part.depth = starts.drop part.depth

/-- The date and time with all fields finer than a part put to their start. -/
def startOf (t : DateTime) : Part → DateTime
  | .year => ⟨⟨t.date.year, 0, 1⟩, .midnight⟩
  | .month => ⟨⟨t.date.year, t.date.month, 1⟩, .midnight⟩
  | .day => ⟨t.date, .midnight⟩
  | .hour => ⟨t.date, ⟨t.time.hour, 0, 0, 0⟩⟩
  | .minute => ⟨t.date, ⟨t.time.hour, t.time.minute, 0, 0⟩⟩
  | .second => ⟨t.date, ⟨t.time.hour, t.time.minute, t.time.second, 0⟩⟩

theorem parts_startOf (t : DateTime) (part : Part) :
    (t.startOf part).parts = t.parts.take part.depth ++ starts.drop part.depth := by
  cases part <;> rfl

theorem take_parts_startOf (t : DateTime) (part : Part) :
    (t.startOf part).parts.take part.depth = t.parts.take part.depth := by
  cases part <;> rfl

theorem isStart_startOf (t : DateTime) (part : Part) : (t.startOf part).IsStart part := by
  cases part <;> rfl

/-- **Cutting back twice is cutting back to the coarser part.** -/
theorem startOf_startOf (t : DateTime) (p q : Part) :
    (t.startOf p).startOf q = t.startOf (p.coarser q) := by
  cases p <;> cases q <;> rfl

theorem hasYear_startOf {t : DateTime} (h : HasYear t.date.year) (part : Part) :
    HasYear (t.startOf part).date.year := by
  cases part <;> exact h

theorem valid_startOf {t : DateTime} (h : t.Valid) (part : Part) : (t.startOf part).Valid := by
  obtain ⟨⟨hmonth, hday⟩, hhour, hminute, hsecond, hmillisecond⟩ := h
  have hmidnight : Time.midnight.Valid := by decide
  have hjanuary : (0 : Nat) < 12 := by decide
  have hzero : (0 : Nat) < 60 := by decide
  have hzero' : (0 : Nat) < 1000 := by decide
  cases part with
  | year => exact ⟨⟨hjanuary, Nat.le_refl 1, one_le_monthLength _ hjanuary⟩, hmidnight⟩
  | month => exact ⟨⟨hmonth, Nat.le_refl 1, one_le_monthLength _ hmonth⟩, hmidnight⟩
  | day => exact ⟨⟨hmonth, hday⟩, hmidnight⟩
  | hour => exact ⟨⟨hmonth, hday⟩, hhour, hzero, hzero, hzero'⟩
  | minute => exact ⟨⟨hmonth, hday⟩, hhour, hminute, hzero, hzero'⟩
  | second => exact ⟨⟨hmonth, hday⟩, hhour, hminute, hsecond, hzero'⟩

/-! ## 2. The greatest start -/

/-- The start of a part is not after the time. -/
theorem toMillis_startOf_le (t : DateTime) (part : Part) :
    (t.startOf part).toMillis ≤ t.toMillis := by
  have hmonth : daysBeforeMonth t.date.year 0 = 0 := rfl
  cases part <;>
    simp only [startOf, toMillis, Time.toMillis, Time.midnight, Date.dayNumber, hmonth,
      millisPerDay] <;>
    omega

/-- **No later start of the part comes before the time**: the fields down to the part would have to
be later too. -/
theorem le_startOf {t u : DateTime} (ht : t.Valid) (hu : u.Valid) {part : Part}
    (hstart : u.IsStart part) (hle : u.toMillis ≤ t.toMillis) :
    u.toMillis ≤ (t.startOf part).toMillis := by
  by_contra hlt
  rw [not_le, toMillis_lt_iff (valid_startOf ht part) hu, parts_startOf] at hlt
  rw [← not_lt, toMillis_lt_iff ht hu] at hle
  have hlength : (t.parts.take part.depth).length = (u.parts.take part.depth).length := by
    rw [List.length_take, List.length_take]
    rfl
  rw [← List.take_append_drop part.depth u.parts] at hlt hle
  rw [← List.take_append_drop part.depth t.parts] at hle
  rw [hstart] at hlt
  -- the fields down to the part decide, because those below it are the same
  rcases lt_trichotomy (t.parts.take part.depth) (u.parts.take part.depth) with h | h | h
  · exact hle ((append_lt_append_iff hlength _ _).mpr (.inl h))
  · rw [h] at hlt
    exact absurd hlt (List.lt_irrefl _)
  · exact absurd hlt (not_lt_of_gt ((append_lt_append_iff hlength.symm _ _).mpr (.inl h)))

theorem toMillis_startOf_mono {t u : DateTime} (ht : t.Valid) (hu : u.Valid) (part : Part)
    (hle : t.toMillis ≤ u.toMillis) : (t.startOf part).toMillis ≤ (u.startOf part).toMillis :=
  le_startOf hu (valid_startOf ht part) (isStart_startOf t part)
    ((toMillis_startOf_le t part).trans hle)

/-- **Parts that are lengths of time begin at its multiples.** -/
theorem toMillis_startOf_of_length? {t : DateTime} (h : t.Valid) {part : Part} {unit : Nat}
    (hunit : part.length? = some unit) :
    (t.startOf part).toMillis = t.toMillis - t.toMillis % unit := by
  obtain ⟨hhour, hminute, hsecond, hmillisecond⟩ := h.2
  cases part <;> cases hunit <;>
    simp only [startOf, toMillis, Time.toMillis, Time.midnight, millisPerDay, millisPerHour,
      millisPerMinute, millisPerSecond] <;>
    omega

end Calendar.DateTime

namespace Instant

/-! ## 3. Two ways of cutting back -/

section Whole

variable {x : Instant} {t : DateTime} {ms : Int} {part : Part} {unit : Nat}

theorem startOf_of_months? {n : Nat} (hx : x.isEmpty = false) (h : part.months? = some n)
    (ht : x.dateTime? = some t) : x.startOf part = ofDateTime (t.startOf part) := by
  unfold startOf
  rw [hx, if_neg Bool.false_ne_true]
  cases part <;> cases h <;> rw [ht] <;> rfl

theorem startOf_of_length? (hx : x.isEmpty = false) (h : part.length? = some unit) :
    x.startOf part = x.truncateTo unit := by
  unfold startOf
  rw [hx, if_neg Bool.false_ne_true]
  cases part <;> cases h <;> rfl

/-- A minus zero loses its sign, since its remainder is a zero and the difference of the two is
positive. -/
theorem truncateTo_minusZero (h : part.length? = some unit) :
    truncateTo ⟨.zero true⟩ unit = ⟨.zero false⟩ := by
  cases part <;> cases h <;> decide +kernel

theorem length_bounds (h : part.length? = some unit) : 0 < unit ∧ unit ≤ 2 ^ 53 := by
  cases part <;> cases h <;> decide

/-- Cutting back by the remainder is exact, and it leaves no minus zero. -/
theorem truncateTo_eq (hx : x.millis.toInt? = some ms) (hunit : part.length? = some unit)
    (hfits : Double.Fits (ms - ms % unit)) :
    x.truncateTo unit = ⟨Double.ofInt (ms - ms % unit)⟩ := by
  obtain ⟨hpos, hbound⟩ := length_bounds hunit
  have hlength : (Double.ofInt unit).toInt? = some (unit : Int) :=
    Double.toInt?_ofInt (.of_natAbs_le hbound)
  have hrem := Double.toInt?_remEuclid hx hlength (Int.natCast_pos.mpr hpos) hbound
  have hsub := Double.toInt?_sub hx hrem hfits
  by_cases hzero : x.millis = .zero true
  · have hcut := truncateTo_minusZero hunit
    rw [← hzero] at hcut
    have hstart : ms - ms % unit = 0 := by
      rw [hzero] at hx
      obtain rfl : (0 : Int) = ms := Option.some.inj hx
      rw [Int.zero_emod, Int.sub_zero]
    rw [hstart]
    exact hcut
  · have hne : x.millis - x.millis.remEuclid (Double.ofInt unit) ≠ .zero true :=
      fun h => hzero (Double.eq_zero_true_of_sub hx hrem hfits h)
    rw [Double.ofInt_of_toInt? hsub, Double.dropZeroSign, if_neg hne]
    rfl

/-- **Both ways of cutting back lead to the start of the part**, the same datum in each. -/
theorem startOf_eq (hx : x.millis.toInt? = some ms) (ht : x.dateTime? = some t) (part : Part) :
    x.startOf part = ofDateTime (t.startOf part) := by
  have hpresent := isEmpty_of_toInt? hx
  cases hunit : part.length? with
  | none =>
    cases part with
    | year => exact startOf_of_months? hpresent (n := 12) rfl ht
    | month => exact startOf_of_months? hpresent (n := 1) rfl ht
    | day | hour | minute | second => cases hunit
  | some unit =>
    obtain ⟨hrange, rfl⟩ := (dateTime?_eq_some_iff (Double.floor?_of_toInt? hx)).mp ht
    have hvalid := DateTime.valid_ofMillis ms
    have hstart := DateTime.toMillis_startOf_of_length? hvalid hunit
    have hyear := DateTime.hasYear_startOf ((hasYear_ofMillis_iff ms).mpr hrange) part
    have hinside := DateTime.toMillis_bounds (DateTime.valid_startOf hvalid part) hyear
    have hfits := fits_millis hinside
    rw [DateTime.toMillis_ofMillis] at hstart
    rw [hstart] at hfits
    rw [startOf_of_length? hpresent hunit, truncateTo_eq hx hunit hfits, ofDateTime, hstart]

/-- The start of a part is at a whole millisecond of the calendar again, and it has the fields cut
back. -/
theorem startOf_whole (hx : x.millis.toInt? = some ms)
    (hrange : firstMillis ≤ ms ∧ ms ≤ lastMillis) (part : Part) :
    (x.startOf part).millis.toInt? = some ((DateTime.ofMillis ms).startOf part).toMillis ∧
      (x.startOf part).dateTime? = some ((DateTime.ofMillis ms).startOf part) := by
  rw [startOf_eq hx (dateTime?_of_whole hx hrange)]
  exact toInt?_ofDateTime (DateTime.valid_startOf (DateTime.valid_ofMillis ms) part)
    (DateTime.hasYear_startOf ((hasYear_ofMillis_iff ms).mpr hrange) part)

/-- **Cutting back twice is cutting back to the coarser part.** -/
theorem startOf_startOf (hx : x.millis.toInt? = some ms)
    (hrange : firstMillis ≤ ms ∧ ms ≤ lastMillis) (p q : Part) :
    (x.startOf p).startOf q = x.startOf (p.coarser q) := by
  obtain ⟨hmillis, hfields⟩ := startOf_whole hx hrange p
  rw [startOf_eq hmillis hfields, DateTime.startOf_startOf,
    startOf_eq hx (dateTime?_of_whole hx hrange)]

end Whole

/-! ## 4. What the start of a part satisfies -/

/-- **The start of a part, for a whole millisecond of the calendar.**  It has fields, which are
those of the instant down to the part, and their start below it.  It is not after the instant, and
no instant up to there that shows all finer fields at their start is at a later millisecond.
Cutting back keeps the order, and cutting back again, to any part, is cutting back to the coarser of
both at once, in either order. -/
theorem startOf_floor {x : Instant} {ms : Int} (hx : x.millis.toInt? = some ms)
    (hrange : firstMillis ≤ ms ∧ ms ≤ lastMillis) (part : Part) :
    let y := x.startOf part
    (∃ t u start, x.dateTime? = some t ∧ y.dateTime? = some u ∧ y.millis.toInt? = some start ∧
      u.parts.take part.depth = t.parts.take part.depth ∧ u.IsStart part ∧
      y.millis.le x.millis = true ∧
      ∀ (z : Instant) (m : Int) (w : DateTime), z.millis.floor? = some m → z.dateTime? = some w →
        w.IsStart part → z.millis.le x.millis = true → m ≤ start) ∧
    (∀ (z : Instant) (m : Int), z.millis.toInt? = some m → firstMillis ≤ m ∧ m ≤ lastMillis →
      x.millis.le z.millis = true → y.millis.le (z.startOf part).millis = true) ∧
    y.startOf part = y ∧
    ∀ q, y.startOf q = x.startOf (part.coarser q) ∧
      (x.startOf q).startOf part = x.startOf (part.coarser q) := by
  intro y
  have hvalid := DateTime.valid_ofMillis ms
  obtain ⟨hstart, hu⟩ := startOf_whole hx hrange part
  refine ⟨⟨_, _, _, dateTime?_of_whole hx hrange, hu, hstart, DateTime.take_parts_startOf _ part,
    DateTime.isStart_startOf _ part, ?_, ?_⟩, ?_, ?_, fun q => ⟨?_, ?_⟩⟩
  · have hle := DateTime.toMillis_startOf_le (.ofMillis ms) part
    rw [DateTime.toMillis_ofMillis] at hle
    exact (Double.le_iff_of_toInt? hstart hx).mpr hle
  · intro z m w hz hw hat hle
    obtain ⟨-, rfl⟩ := (dateTime?_eq_some_iff hz).mp hw
    have hfloor := Double.floor?_le_of_le hz (Double.floor?_of_toInt? hx) hle
    have hbefore := DateTime.le_startOf hvalid (DateTime.valid_ofMillis m) hat
    rw [DateTime.toMillis_ofMillis, DateTime.toMillis_ofMillis] at hbefore
    exact hbefore hfloor
  · intro z m hz hinside hle
    refine (Double.le_iff_of_toInt? hstart (startOf_whole hz hinside part).1).mpr ?_
    refine DateTime.toMillis_startOf_mono hvalid (DateTime.valid_ofMillis m) part ?_
    rw [DateTime.toMillis_ofMillis, DateTime.toMillis_ofMillis]
    exact (Double.le_iff_of_toInt? hx hz).mp hle
  · rw [startOf_startOf hx hrange, Part.coarser_self]
  · exact startOf_startOf hx hrange part q
  · rw [startOf_startOf hx hrange, Part.coarser_comm]

/-- The end of the calendar's first minute is cut back to where the calendar begins. -/
theorem startOf_floor_first_minute :
    let x : Instant := ⟨Double.ofInt (firstMillis + 59999)⟩
    x.millis.toInt? = some (firstMillis + 59999) ∧
      firstMillis + 59999 ≤ lastMillis ∧
      (x.startOf .minute).millis.toInt? = some firstMillis ∧
      (x.startOf .minute).startOf .year = x.startOf .minute ∧
      (x.startOf .year).startOf .minute = x.startOf .year := by
  intro x
  have hx : x.millis.toInt? = some (firstMillis + 59999) := by decide +kernel
  have hrange : firstMillis ≤ firstMillis + 59999 ∧ firstMillis + 59999 ≤ lastMillis := by
    decide +kernel
  obtain ⟨-, -, -, hnest⟩ := startOf_floor hx hrange .minute
  have hfirst : x.startOf .year = x.startOf .minute := by decide +kernel
  refine ⟨hx, hrange.2, by decide +kernel, ?_, (hnest .year).2⟩
  exact (hnest .year).1.trans hfirst

end Instant
end Interchange
