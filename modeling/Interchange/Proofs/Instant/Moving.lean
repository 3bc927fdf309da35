/-
# Moving an instant by parts of a date

Years and months are counted on the line of all months: a move keeps the time of day, and the day is
drawn in to the end of a shorter month.  It ends outside the calendar exactly when the year of the
new month does, and then nothing is left of the instant.

Days and smaller parts are lengths of time.  A move by them is exact wherever it ends inside the
calendar, and it is the same to add to the field of that part and to compose the fields again: what
is out of range there carries.

* `valid_addMonths`: a date moved by months is a date again;
* `total_set`: a component counts with the length of its part;
* `add_whole`: where a whole millisecond is moved to.
-/
import Interchange.Proofs.Instant.Fields

namespace Interchange

open Calendar

/-- **A date moved by months is a date again.** -/
theorem Calendar.Date.valid_addMonths {d : Date} (h : d.Valid) (months : Int) :
    (d.addMonths months).Valid := by
  have hmonth : ((d.monthNumber + months) % 12).toNat < 12 := by omega
  refine ⟨hmonth, ?_, Nat.min_le_right _ _⟩
  exact Nat.le_min.mpr ⟨h.2.1, one_le_monthLength _ hmonth⟩

namespace Instant

/-! ## 1. Two kinds of parts -/

/-- How many months a part has, if it follows the calendar. -/
def Part.months? : Part → Option Nat
  | .year => some 12
  | .month => some 1
  | _ => none

/-- How many milliseconds a part has, if it is a length of time. -/
def Part.length? : Part → Option Nat
  | .day => some millisPerDay
  | .hour => some millisPerHour
  | .minute => some millisPerMinute
  | .second => some millisPerSecond
  | _ => none

theorem add_of_months? {x : Instant} {part : Part} {count : Nat} (hx : x.isEmpty = false)
    (h : part.months? = some count) (n : Int32) :
    x.add n part = x.addMonths (n.toInt * count) := by
  unfold add
  rw [hx, if_neg Bool.false_ne_true]
  cases part <;> cases h
  · rfl
  · rw [Nat.cast_one, Int.mul_one]

theorem add_of_length? {x : Instant} {part : Part} {unit : Nat} (hx : x.isEmpty = false)
    (h : part.length? = some unit) (n : Int32) : x.add n part = ⟨x.millis + span n unit⟩ := by
  unfold add
  rw [hx, if_neg Bool.false_ne_true]
  cases part <;> cases h <;> rfl

/-! ## 2. Months -/

section Months

variable {x : Instant} {t : DateTime} {ms : Int}

/-- A whole millisecond moved by months is the new date at the same time of day. -/
theorem toInt?_addMonths (hx : x.millis.toInt? = some ms) (ht : x.dateTime? = some t)
    (hvalid : t.Valid) {months : Int} (hyear : HasYear (t.date.addMonths months).year) :
    (x.addMonths months).millis.toInt? =
      some (DateTime.toMillis ⟨t.date.addMonths months, t.time⟩) := by
  have hmoved : DateTime.Valid ⟨t.date.addMonths months, t.time⟩ :=
    ⟨Date.valid_addMonths hvalid.1 months, hvalid.2⟩
  have hfits := fits_millis (DateTime.toMillis_bounds hmoved hyear)
  -- a whole millisecond has no part that the calendar does not see
  have hfraction : (x.millis - x.millis.floor).toInt? = some 0 := by
    rw [Double.floor_of_toInt? hx, ← Int.sub_self ms]
    exact Double.toInt?_sub hx hx (.of_natAbs_le (by omega))
  have hsum := Double.toInt?_add (Double.toInt?_ofInt hfits) hfraction (by rwa [Int.add_zero])
  rw [Int.add_zero] at hsum
  unfold addMonths
  rw [ht]
  dsimp only
  rw [if_pos hyear]
  exact hsum

/-- Nothing is left exactly when the calendar does not have the new year: the day is moved into the
new month before, so it never fails. -/
theorem isEmpty_addMonths_iff (hx : x.millis.toInt? = some ms) (ht : x.dateTime? = some t)
    (hvalid : t.Valid) (months : Int) :
    (x.addMonths months).isEmpty = true ↔ ¬HasYear (t.date.addMonths months).year := by
  constructor
  · intro hempty hyear
    rw [isEmpty_of_toInt? (toInt?_addMonths hx ht hvalid hyear)] at hempty
    contradiction
  · intro hyear
    unfold addMonths
    rw [ht]
    dsimp only
    rw [if_neg hyear]
    rfl

end Months

/-! ## 3. Lengths of time -/

def Components.get (c : Components) : Part → Int32
  | .year => c.year
  | .month => c.month
  | .day => c.day
  | .hour => c.hour
  | .minute => c.minute
  | .second => c.second

def Components.set (c : Components) (part : Part) (value : Int32) : Components :=
  match part with
  | .year => { c with year := value }
  | .month => { c with month := value }
  | .day => { c with day := value }
  | .hour => { c with hour := value }
  | .minute => { c with minute := value }
  | .second => { c with second := value }

/-- **A component counts with the length of its part**, and it does not change the month. -/
theorem Components.total_set (c : Components) {part : Part} {unit : Nat}
    (h : part.length? = some unit) (value : Int32) :
    (c.set part value).monthStart = c.monthStart ∧
      (c.set part value).total = c.total + (value.toInt - (c.get part).toInt) * unit := by
  have hstart : (c.set part value).monthStart = c.monthStart := by
    cases part <;> cases h <;> rfl
  refine ⟨hstart, ?_⟩
  unfold total
  rw [hstart]
  generalize DateTime.toMillis ⟨c.monthStart, .midnight⟩ = start
  cases part <;> cases h <;> simp only [set, get, Int.sub_mul] <;> omega

/-- A span of a length of time is exact, whatever its count. -/
theorem toInt?_span_of_length? {part : Part} {unit : Nat} (h : part.length? = some unit)
    (n : Int32) : (span n unit).toInt? = some (n.toInt * unit) := by
  have hn := int32_bounds n
  cases part with
  | year | month => cases h
  | day =>
    cases h
    exact toInt?_mul_millisPerDay (toInt?_ofInt32 n) (by omega)
  | hour | minute | second =>
    cases h
    exact toInt?_span n _ (by decide)

/-! ## 4. Moving a whole millisecond -/

/-- **Where a whole millisecond of the calendar is moved to.**  Years and months lead to the month
so many months on, to the same day or the last one there, at the same time of day; beyond the years
of the calendar they leave nothing.  Days, hours, minutes and seconds lead exactly as far as they
are long, if that is inside the calendar, which is also where the fields lead to with the count
added to that of the part. -/
theorem add_whole {x : Instant} {t : DateTime} {ms : Int} (hx : x.millis.toInt? = some ms)
    (ht : x.dateTime? = some t) (n : Int32) (part : Part) :
    (∀ count, part.months? = some count →
      let k := 12 * t.date.year + t.date.month + n.toInt * count
      let month := (k % 12).toNat
      let moved : DateTime :=
        ⟨⟨k / 12, month, min t.date.day (monthLength (k / 12) month)⟩, t.time⟩
      ((x.add n part).isEmpty = true ↔ ¬HasYear (k / 12)) ∧
        (HasYear (k / 12) → (x.add n part).dateTime? = some moved ∧
          (x.add n part).millis.toInt? = some moved.toMillis)) ∧
    ∀ unit, part.length? = some unit →
      firstMillis ≤ ms + n.toInt * unit ∧ ms + n.toInt * unit ≤ lastMillis →
      (x.add n part).millis.toInt? = some (ms + n.toInt * unit) ∧
        (-0x80000000 ≤ (t.components.get part).toInt + n.toInt ∧
            (t.components.get part).toInt + n.toInt < 0x80000000 →
          (x.add n part).equals
            (ofComponents (t.components.set part (t.components.get part + n))) = true) := by
  have hpresent := isEmpty_of_toInt? hx
  obtain ⟨hrange, rfl⟩ := (dateTime?_eq_some_iff (Double.floor?_of_toInt? hx)).mp ht
  have hvalid := DateTime.valid_ofMillis ms
  constructor
  · intro count hcount k month moved
    rw [add_of_months? hpresent hcount]
    refine ⟨isEmpty_addMonths_iff hx ht hvalid _, fun hyear => ?_⟩
    have hmillis := toInt?_addMonths hx ht hvalid hyear
    have hmoved : moved.Valid := ⟨Date.valid_addMonths hvalid.1 _, hvalid.2⟩
    refine ⟨?_, hmillis⟩
    rw [dateTime?_eq_some_iff (Double.floor?_of_toInt? hmillis)]
    exact ⟨DateTime.toMillis_bounds hmoved hyear, (DateTime.ofMillis_toMillis hmoved).symm⟩
  · intro unit hunit hinside
    have hmillis : (x.add n part).millis.toInt? = some (ms + n.toInt * unit) := by
      rw [add_of_length? hpresent hunit]
      exact Double.toInt?_add hx (toInt?_span_of_length? hunit n) (fits_millis hinside)
    refine ⟨hmillis, fun hfits => equals_of_toInt? hmillis ?_⟩
    have hyear := (hasYear_ofMillis_iff ms).mpr hrange
    obtain ⟨hstart, htotal⟩ := total_components hvalid hyear
    generalize (DateTime.ofMillis ms).components = c at *
    obtain ⟨hstart', htotal'⟩ := c.total_set hunit (c.get part + n)
    have hfield : (c.get part + n).toInt = (c.get part).toInt + n.toInt := by
      rw [Int32.toInt_add]
      exact Int.bmod_eq_of_le (by omega) (by omega)
    rw [htotal, DateTime.toMillis_ofMillis, hfield, add_sub_cancel_left] at htotal'
    rw [← htotal'] at hinside ⊢
    exact toInt?_ofComponents (by rw [hstart', hstart]; exact hyear) hinside

/-- The last millisecond before the epoch, two months and one second on. -/
theorem add_whole_before_epoch :
    let x : Instant := ⟨Double.ofInt (-1)⟩
    x.millis.toInt? = some (-1) ∧ x.dateTime? = some ⟨⟨1969, 11, 31⟩, ⟨23, 59, 59, 999⟩⟩ ∧
      (x.add 2 .month).dateTime? = some ⟨⟨1970, 1, 28⟩, ⟨23, 59, 59, 999⟩⟩ ∧
      (x.add 1 .second).millis.toInt? = some 999 ∧
      (x.add 1 .second).equals (ofComponents ⟨1969, 11, 31, 23, 59, 60, 999⟩) = true := by
  intro x
  have hx : x.millis.toInt? = some (-1) := by decide +kernel
  have ht : x.dateTime? = some ⟨⟨1969, 11, 31⟩, ⟨23, 59, 59, 999⟩⟩ := by decide +kernel
  obtain ⟨-, hmonth⟩ := (add_whole hx ht 2 .month).1 1 rfl
  obtain ⟨hmillis, hequal⟩ := (add_whole hx ht 1 .second).2 1000 rfl (by decide +kernel)
  have hnext : (-1 : Int) + (1 : Int32).toInt * (1000 : Nat) = 999 := by decide
  rw [hnext] at hmillis
  exact ⟨hx, ht, (hmonth (by decide)).1, hmillis, hequal (by decide)⟩

end Instant
end Interchange
