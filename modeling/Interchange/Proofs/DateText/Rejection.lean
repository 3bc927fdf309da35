/-
# Why a date text is rejected

Once a scan has ended, the parts that it collected are checked one after the other, and the first
one that does not exist is blamed.  An error names the part and its value, so that it can be held
against the parts beside it: a month against the year, a day against the month, an hour against the
clock it is on.

One blame is wrong.  A year that fits 32 bits but lies beyond the calendar passes the check of the
year, which is no more than the conversion to 32 bits, and the look-up of the date fails on it.  To
`millis` a failed look-up is a day that its month does not have, whatever it failed on.  So the day
is blamed, which may well exist.

* `OutOfRange`: the parts that do not exist beside the others;
* `millis_error_cases`: what parts are rejected for;
* `read_blames`: what an error that names a part says of the text.
-/
import Interchange.Proofs.DateText.Outcomes

namespace Interchange

open Calendar

namespace DateText

/-! ## 1. Steps that can fail -/

theorem bind_eq_ok {α β : Type} {x : Except Error α} {f : α → Except Error β} {b : β}
    (h : x >>= f = .ok b) : ∃ a, x = .ok a ∧ f a = .ok b := by
  cases x with
  | error e => contradiction
  | ok a => exact ⟨a, rfl, h⟩

theorem bind_eq_error {α β : Type} {x : Except Error α} {f : α → Except Error β} {e : Error}
    (h : x >>= f = .error e) : x = .error e ∨ ∃ a, x = .ok a ∧ f a = .error e := by
  cases x with
  | error e' => exact .inl (congrArg Except.error (Except.error.inj h))
  | ok a => exact .inr ⟨a, rfl, h⟩

theorem map_eq_error {α β : Type} {x : Except Error α} {f : α → β} {e : Error}
    (h : x.map f = .error e) : x = .error e := by
  cases x with
  | error e' => exact congrArg Except.error (Except.error.inj h)
  | ok a => contradiction

namespace Scan

/-- A part that is checked is in range, if anything after the check succeeds. -/
theorem check_bind_eq_ok {α : Type} {field : Field} {value low high : Int}
    {next : Unit → Except Error α} {a : α} (h : check field value low high >>= next = .ok a) :
    (low ≤ value ∧ value ≤ high) ∧ next () = .ok a := by
  unfold check at h
  split at h
  · exact ⟨by assumption, h⟩
  · contradiction

/-- A check blames its part if that is out of range, and leaves the error to what comes after it if
not. -/
theorem check_bind_eq_error {α : Type} {field : Field} {value low high : Int}
    {next : Unit → Except Error α} {e : Error}
    (h : check field value low high >>= next = .error e) :
    (¬(low ≤ value ∧ value ≤ high) ∧ e = .fieldOutOfRange field value) ∨
      ((low ≤ value ∧ value ≤ high) ∧ next () = .error e) := by
  unfold check at h
  split at h
  · exact .inr ⟨by assumption, h⟩
  · exact .inl ⟨by assumption, (Except.error.inj h).symm⟩

/-! ## 2. Parts that do not exist -/

/-- The hours of the clock: 1 to 12 with a half of the day, and else 0 to 23. -/
def HasHour (s : Scan) (hour : Int) : Prop :=
  match s.meridiem with
  | none => 0 ≤ hour ∧ hour ≤ 23
  | some _ => 1 ≤ hour ∧ hour ≤ 12

/-- A part and its value that do not exist beside the other parts of the date.  This is what an
error that names a part is held against; it is said without the order in which parts are checked. -/
inductive OutOfRange (s : Scan) (d : CalendarDay) : Field → Int → Prop where
  | year : ¬HasYear d.year → OutOfRange s d .year d.year
  | month : ¬(1 ≤ d.month ∧ d.month ≤ 12) → OutOfRange s d .month d.month
  | day : ¬(1 ≤ d.day ∧ d.day ≤ monthLength d.year (d.month - 1).toNat) → OutOfRange s d .day d.day
  | hour : ¬s.HasHour s.clockOrMidnight.hour → OutOfRange s d .hour s.clockOrMidnight.hour
  | minute : 59 < s.clockOrMidnight.minute → OutOfRange s d .minute s.clockOrMidnight.minute
  | second : 59 < s.clockOrMidnight.second → OutOfRange s d .second s.clockOrMidnight.second

/-- All parts exist but the year, which the calendar does not have.  The day exists in its month of
that year, as the calendar would go on. -/
structure OnlyYearMissing (s : Scan) (d : CalendarDay) : Prop where
  year : ¬HasYear d.year
  month : 1 ≤ d.month ∧ d.month ≤ 12
  day : 1 ≤ d.day ∧ d.day ≤ monthLength d.year (d.month - 1).toNat
  hour : s.HasHour s.clockOrMidnight.hour
  minute : s.clockOrMidnight.minute ≤ 59
  second : s.clockOrMidnight.second ≤ 59

def checkedFields : List Field := [.year, .month, .day, .hour, .minute, .second]

variable {s : Scan} {d : CalendarDay} {e : Error}

theorem OutOfRange.mem_checkedFields {field : Field} {value : Int}
    (h : s.OutOfRange d field value) : field ∈ checkedFields := by
  cases h <;> simp [checkedFields]

/-! ## 3. Hours -/

theorem hour24_error {half : Option Meridiem} {hour : Nat} (h : hour24 half hour = .error e) :
    e = .fieldOutOfRange .hour hour := by
  unfold hour24 at h
  split at h
  · contradiction
  · split at h
    · split at h <;> contradiction
    · exact (Except.error.inj h).symm

/-- Only an hour without a half of the day can be too large, and it is as it was written. -/
theorem hour24_eq_of_lt {half : Option Meridiem} {written hour : Nat}
    (h : hour24 half written = .ok hour) (hlt : 23 < hour) : hour = written := by
  unfold hour24 at h
  split at h
  · exact (Except.ok.inj h).symm
  · split at h
    · split at h <;> obtain rfl := Except.ok.inj h <;> omega
    · contradiction

/-- **An hour exists exactly if it is an hour of the day** on a 24-hour clock. -/
theorem hasHour_iff : s.HasHour s.clockOrMidnight.hour ↔
    ∃ hour, hour24 s.meridiem s.clockOrMidnight.hour = .ok hour ∧ hour ≤ 23 := by
  unfold HasHour hour24
  cases s.meridiem with
  | none =>
    simp only [Except.ok.injEq, exists_eq_left']
    omega
  | some half =>
    by_cases htwelve : 1 ≤ s.clockOrMidnight.hour ∧ s.clockOrMidnight.hour ≤ 12
    · have hmod : s.clockOrMidnight.hour % 12 + 12 ≤ 23 := by omega
      cases half <;> simp only [if_pos htwelve, Except.ok.injEq, exists_eq_left'] <;> omega
    · simp only [if_neg htwelve, reduceCtorEq, false_and, exists_false, iff_false]
      omega

/-- An hour that is none of the day is blamed as it is written. -/
theorem outOfRange_hour
    (h : ∀ hour, hour24 s.meridiem s.clockOrMidnight.hour = .ok hour → 23 < hour) :
    s.OutOfRange d .hour s.clockOrMidnight.hour := by
  refine .hour fun hhas => ?_
  obtain ⟨hour, hok, hle⟩ := hasHour_iff.mp hhas
  have hlt := h hour hok
  omega

/-! ## 4. What parts are rejected for -/

/-- Numbers that are no date are too few or too many, and none of them is blamed for its value. -/
theorem calendarDay_error (h : s.calendarDay = .error e) :
    (∃ text, e = .unexpectedToken text) ∨
      ∃ field ∈ [Field.date, .year, .month, .day], e = .missingField field := by
  unfold calendarDay at h
  split at h
  case h_1 | h_5 => split at h <;> contradiction
  case h_2 =>
    split at h <;> exact .inr ⟨_, by simp, (Except.error.inj h).symm⟩
  case h_4 => exact .inl ⟨_, (Except.error.inj h).symm⟩
  all_goals exact .inr ⟨_, by simp, (Except.error.inj h).symm⟩

/-- A date that is not found beside a time that exists has a day that does not exist, or only its
year is missing. -/
theorem outOfRange_or_onlyYearMissing (hmonth : 1 ≤ d.month ∧ d.month ≤ 12)
    (hhour : s.HasHour s.clockOrMidnight.hour) (hminute : s.clockOrMidnight.minute ≤ 59)
    (hsecond : s.clockOrMidnight.second ≤ 59)
    (hdate : ¬(Date.Valid ⟨d.year, (d.month - 1).toNat, d.day.toNat⟩ ∧ HasYear d.year)) :
    s.OutOfRange d .day d.day ∨ s.OnlyYearMissing d := by
  by_cases hday : 1 ≤ d.day ∧ d.day ≤ monthLength d.year (d.month - 1).toNat
  · refine .inr ⟨fun hyear => hdate ⟨?_, hyear⟩, hmonth, hday, hhour, hminute, hsecond⟩
    refine ⟨?_, ?_, ?_⟩ <;> dsimp only <;> omega
  · exact .inl (.day hday)

/-- **Parts are rejected for one of them**: there are too few or too many numbers for a date, or a
part does not exist, or all exist but the year, and then the day is blamed. -/
theorem millis_error_cases (hs : s.Bounded) (h : s.millis = .error e) :
    s.calendarDay = .error e ∨ ∃ d field value, s.calendarDay = .ok d ∧
      e = .fieldOutOfRange field value ∧
      (s.OutOfRange d field value ∨ (s.OnlyYearMissing d ∧ field = .day ∧ value = d.day)) := by
  rcases bind_eq_error h with h | ⟨d, hday, h⟩
  · exact .inl h
  refine .inr ⟨d, ?_⟩
  rcases bind_eq_error h with h | ⟨hour, hhour, h⟩
  · obtain rfl := hour24_error h
    refine ⟨_, _, hday, rfl, .inl (outOfRange_hour fun hour hok => ?_)⟩
    rw [h] at hok
    contradiction
  rcases check_bind_eq_error h with ⟨hyear, rfl⟩ | ⟨-, h⟩
  · refine ⟨_, _, hday, rfl, .inl (.year fun hhas => hyear ?_)⟩
    simp only [HasYear, firstYear, lastYear] at hhas
    omega
  rcases check_bind_eq_error h with ⟨hmonth, rfl⟩ | ⟨hmonth, h⟩
  · exact ⟨_, _, hday, rfl, .inl (.month hmonth)⟩
  rcases check_bind_eq_error h with ⟨hdays, rfl⟩ | ⟨hdays, h⟩
  · refine ⟨_, _, hday, rfl, .inl (.day fun hexists => hdays ?_)⟩
    have hlast := monthLength_le d.year (d.month - 1).toNat
    omega
  rcases check_bind_eq_error h with ⟨hnot, rfl⟩ | ⟨hhours, h⟩
  · obtain rfl := hour24_eq_of_lt hhour (by omega)
    refine ⟨_, _, hday, rfl, .inl (outOfRange_hour fun hour' hok => ?_)⟩
    obtain rfl := Except.ok.inj (hhour.symm.trans hok)
    omega
  have hhas : s.HasHour s.clockOrMidnight.hour := hasHour_iff.mpr ⟨hour, hhour, by omega⟩
  rcases check_bind_eq_error h with ⟨hminute, rfl⟩ | ⟨hminute, h⟩
  · exact ⟨_, _, hday, rfl, .inl (.minute (by omega))⟩
  rcases check_bind_eq_error h with ⟨hsecond, rfl⟩ | ⟨hsecond, h⟩
  · exact ⟨_, _, hday, rfl, .inl (.second (by omega))⟩
  have htime : Time.Valid ⟨hour, s.clockOrMidnight.minute, s.clockOrMidnight.second,
      s.clockOrMidnight.millisecond⟩ := by
    refine ⟨?_, ?_, ?_, hs.millisecond_lt⟩ <;> dsimp only <;> omega
  dsimp only at h
  split at h
  · contradiction
  next hdate =>
    obtain rfl := Except.error.inj h
    have hblame := outOfRange_or_onlyYearMissing hmonth hhas (by omega) (by omega) hdate
    exact ⟨_, _, hday, rfl, hblame.imp_right fun hmissing => ⟨hmissing, rfl, rfl⟩⟩

/-- **An existing day is blamed for a year that the calendar does not have**, unless the year does
not even fit 32 bits. -/
theorem OnlyYearMissing.millis_eq (h : s.OnlyYearMissing d) (hday : s.calendarDay = .ok d) :
    s.millis = .error
      (if -0x80000000 ≤ d.year ∧ d.year ≤ 0x7FFFFFFF then .fieldOutOfRange .day d.day
      else .fieldOutOfRange .year d.year) := by
  obtain ⟨hour, hhour, hle⟩ := hasHour_iff.mp h.hour
  have hminute := h.minute
  have hsecond := h.second
  have hlast := monthLength_le d.year (d.month - 1).toNat
  have hdays : 1 ≤ d.day ∧ d.day ≤ 31 := by
    have hday' := h.day
    omega
  unfold millis
  rw [hday]
  simp only [hhour, bind, Except.bind]
  by_cases hfits : -0x80000000 ≤ d.year ∧ d.year ≤ 0x7FFFFFFF
  · have hdate : ¬(Date.Valid ⟨d.year, (d.month - 1).toNat, d.day.toNat⟩ ∧ HasYear d.year) :=
      fun hdate => h.year hdate.2
    rw [if_pos hfits, check_of_mem hfits, check_of_mem h.month, check_of_mem hdays,
      check_of_mem (by omega), check_of_mem (by omega), check_of_mem (by omega)]
    simp only [hdate, if_false]
    rfl
  · rw [if_neg hfits, check, if_neg hfits]

end Scan

/-! ## 5. What texts are rejected for -/

theorem bounded_of_run_tokens {lenient : Bool} {text : List Char} {s : Scan}
    (h : Scan.run lenient .initial (tokens true text) = .ok s) : s.Bounded :=
  Scan.bounded_run Scan.bounded_initial uniform_of_mem_tokens h

/-- The error of a text that names a part that is checked is one of its collected parts. -/
theorem exists_of_readMillis_error {lenient : Bool} {text : List Char} {field : Field} {value : Int}
    (hfield : field ∈ Scan.checkedFields)
    (h : readMillis lenient text = .error (.fieldOutOfRange field value)) :
    ∃ s d, Scan.run lenient .initial (tokens true text) = .ok s ∧ s.calendarDay = .ok d ∧
      (s.OutOfRange d field value ∨ (s.OnlyYearMissing d ∧ field = .day ∧ value = d.day)) := by
  unfold readMillis at h
  split at h
  · exact Error.noConfusion (Except.error.inj h)
  rcases bind_eq_error h with hrun | ⟨s, hrun, h⟩
  · -- the scan itself blames only the parts of an offset
    have hscan : Error.IsOfScan (.fieldOutOfRange field value) :=
      Scan.run_error uniform_of_mem_tokens hrun
    rcases hscan with ⟨rfl, -⟩ | ⟨rfl, -⟩ <;> simp [Scan.checkedFields] at hfield
  · rcases Scan.millis_error_cases (bounded_of_run_tokens hrun) h with
      h | ⟨d, f, v, hday, he, hblame⟩
    · rcases Scan.calendarDay_error h with ⟨_, he⟩ | ⟨_, -, he⟩ <;> exact Error.noConfusion he
    · obtain ⟨rfl, rfl⟩ := Error.fieldOutOfRange.inj he
      exact ⟨s, d, hrun, hday, hblame⟩

/-- **A text with a real day in a year that the calendar does not have** is rejected for the day,
unless the year does not even fit 32 bits. -/
theorem readMillis_of_onlyYearMissing {lenient : Bool} {text : List Char} {s : Scan}
    {d : CalendarDay} (hrun : Scan.run lenient .initial (tokens true text) = .ok s)
    (hday : s.calendarDay = .ok d) (h : s.OnlyYearMissing d) :
    readMillis lenient text = .error
      (if -0x80000000 ≤ d.year ∧ d.year ≤ 0x7FFFFFFF then .fieldOutOfRange .day d.day
      else .fieldOutOfRange .year d.year) := by
  have hblank : ¬text.all isBlank = true := by
    intro hblank
    rw [tokens_of_blank hblank, Scan.run_nil] at hrun
    obtain rfl := Except.ok.inj hrun
    contradiction
  rw [readMillis, if_neg hblank, hrun]
  exact h.millis_eq hday

end DateText

namespace Instant

open DateText

theorem read_eq_error_iff {text : List Char} {e : DateText.Error} :
    read text = .error e ↔ readMillis false text = .error e := by
  unfold read
  cases readMillis false text with
  | ok ms => constructor <;> intro h <;> contradiction
  | error e' => exact ⟨map_eq_error, fun h => congrArg (Except.map _) h⟩

/-- **A text that is rejected for a part has that part, with that value, and it does not exist**
beside the others, with one exception.  Where all parts exist but the year, the day is blamed
although it exists; only a year that does not fit 32 bits is blamed itself. -/
theorem read_blames (text : List Char) :
    (∀ field ∈ Scan.checkedFields, ∀ value, read text = .error (.fieldOutOfRange field value) →
      ∃ s d, Scan.run false .initial (tokens true text) = .ok s ∧ s.calendarDay = .ok d ∧
        (s.OutOfRange d field value ∨ (s.OnlyYearMissing d ∧ field = .day ∧ value = d.day))) ∧
      ∀ s d, Scan.run false .initial (tokens true text) = .ok s → s.calendarDay = .ok d →
        s.OnlyYearMissing d → read text = .error
          (if -0x80000000 ≤ d.year ∧ d.year ≤ 0x7FFFFFFF then .fieldOutOfRange .day d.day
          else .fieldOutOfRange .year d.year) := by
  refine ⟨fun field hfield value h => ?_, fun s d hrun hday h => ?_⟩
  · exact exists_of_readMillis_error hfield (read_eq_error_iff.mp h)
  · exact read_eq_error_iff.mpr (readMillis_of_onlyYearMissing hrun hday h)

/-- A day that February does not have, and a year that does not fit 32 bits. -/
theorem read_blames_february :
    let february := "2021-02-30".toList
    let far := "9999999999-02-28".toList
    read february = .error (.fieldOutOfRange .day 30) ∧
      (∃ s d, Scan.run false .initial (tokens true february) = .ok s ∧ s.calendarDay = .ok d ∧
        s.OutOfRange d .day 30) ∧
      read far = .error (.fieldOutOfRange .year 9999999999) := by
  intro february far
  have hfebruary : read february = .error (.fieldOutOfRange .day 30) := by decide +kernel
  have hscan : Scan.run false .initial (tokens true far) =
      .ok ⟨[⟨9999999999, 10, false⟩, ⟨2, 2, false⟩, ⟨28, 2, false⟩], none, none, none, none,
        false⟩ := by decide +kernel
  have hmissing : Scan.OnlyYearMissing ⟨[⟨9999999999, 10, false⟩, ⟨2, 2, false⟩, ⟨28, 2, false⟩],
      none, none, none, none, false⟩ ⟨9999999999, 2, 28⟩ :=
    ⟨by decide, by decide, by decide, ⟨by decide, by decide⟩, by decide, by decide⟩
  refine ⟨hfebruary, ?_, (read_blames far).2 _ _ hscan rfl hmissing⟩
  obtain ⟨s, d, hrun, hday, hblame⟩ := (read_blames february).1 .day (by decide) 30 hfebruary
  refine ⟨s, d, hrun, hday, hblame.resolve_right fun ⟨hmissing, _⟩ => hmissing.year ?_⟩
  -- the year is one of the calendar, so that it is the day that does not exist
  have hrun' : Scan.run false .initial (tokens true february) =
      .ok ⟨[⟨2021, 4, false⟩, ⟨2, 2, false⟩, ⟨30, 2, false⟩], none, none, none, none, false⟩ := by
    decide +kernel
  obtain rfl := Except.ok.inj (hrun'.symm.trans hrun)
  obtain rfl := Except.ok.inj hday
  decide

/-- **A day that exists can be blamed**: the first of January of a year beyond the calendar. -/
theorem read_blames_existing_day :
    ∃ text s d, Scan.run false .initial (tokens true text) = .ok s ∧ s.calendarDay = .ok d ∧
      read text = .error (.fieldOutOfRange .day d.day) ∧ s.OnlyYearMissing d ∧
      ¬s.OutOfRange d .day d.day := by
  refine ⟨"300000-01-01".toList,
    ⟨[⟨300000, 6, false⟩, ⟨1, 2, false⟩, ⟨1, 2, false⟩], none, none, none, none, false⟩,
    ⟨300000, 1, 1⟩, ?_, rfl, ?_, ?_, ?_⟩
  · decide +kernel
  · decide +kernel
  · exact ⟨by decide, by decide, by decide, ⟨by decide, by decide⟩, by decide, by decide⟩
  · intro h
    cases h with
    | day hnot => exact hnot (by decide)

end Instant
end Interchange
