/-
# Dates and times that do not exist

A date with dashes and a clock with colons can be written with numbers of any length: leading zeros
do not count, and a number too large to be counted stops at a limit that no part of a date comes
near.  Every number behind the year is taken for what its place says, even one as wide as a whole
date.  The text is read exactly if the date and the time exist; nothing is carried over into a
neighbouring day, hour or minute.

* `Dashed`: such a text, by its numbers;
* `Dashed.run_text`: what the scan makes of it;
* `Dashed.exists_of_millis_scan`, `Dashed.Exists.millis_scan`: when the numbers denote an instant;
* `read_dashed_iff`: when the text is read, and as what.
-/
import Interchange.Proofs.DateText.Acceptance

namespace Interchange

open Calendar Decimal

namespace DateText

/-! ## 1. What is written -/

/-- The numbers of a date with dashes and a clock with colons, each a run of digits.  The year has
three to seven of them, too many for a day and too few for a whole date; the other runs are of any
length, so that what is too large for 64 bits is among them. -/
structure Dashed where
  negative : Bool
  year : List Char
  month : List Char
  day : List Char
  hour : List Char
  minute : List Char
  second : List Char
  isDigits_year : IsDigits year := by decide +kernel
  isDigits_month : IsDigits month := by decide +kernel
  isDigits_day : IsDigits day := by decide +kernel
  isDigits_hour : IsDigits hour := by decide +kernel
  isDigits_minute : IsDigits minute := by decide +kernel
  isDigits_second : IsDigits second := by decide +kernel
  three_le_year : 3 ≤ year.length := by decide +kernel
  year_le_seven : year.length ≤ 7 := by decide +kernel

namespace Dashed

/-- The text, like `-0044-03-15 12:00:00`. -/
def text (d : Dashed) : List Char :=
  (if d.negative then ['-'] else []) ++ (d.year ++ '-' :: (d.month ++ '-' :: (d.day ++
    ' ' :: (d.hour ++ ':' :: (d.minute ++ ':' :: d.second)))))

def signedYear (d : Dashed) : Int := if d.negative then -(value d.year) else value d.year

/-- The date and the time that the numbers name, if they exist. -/
def dateTime (d : Dashed) : DateTime :=
  ⟨⟨d.signedYear, value d.month - 1, value d.day⟩,
    ⟨value d.hour, value d.minute, value d.second, 0⟩⟩

/-- There is such a date in a year of the calendar, and such a time. -/
def Exists (d : Dashed) : Prop :=
  HasYear d.signedYear ∧ (1 ≤ value d.month ∧ value d.month ≤ 12) ∧
    (1 ≤ value d.day ∧ value d.day ≤ monthLength d.signedYear (value d.month - 1)) ∧
    value d.hour ≤ 23 ∧ value d.minute ≤ 59 ∧ value d.second ≤ 59

instance (d : Dashed) : Decidable d.Exists := inferInstanceAs (Decidable (_ ∧ _ ∧ _ ∧ _))

/-! ## 2. The scan -/

/-- What the scan collects from the text, before any part of it is asked whether it exists. -/
def scan (d : Dashed) : Scan where
  numbers := [.ofDigits d.negative d.year, .ofDigits false d.month, .ofDigits false d.day]
  month := none
  clock := some ⟨count d.hour, count d.minute, count d.second, 0⟩
  offsetMinutes := none
  meridiem := none
  minusPending := false

variable (d : Dashed)

theorem tokens_text :
    tokens true d.text = (if d.negative then [.leadingMinus] else []) ++
      [.number d.year, .symbol '-', .number d.month, .symbol '-', .number d.day, .number d.hour,
        .symbol ':', .number d.minute, .symbol ':', .number d.second] := by
  have hdash (rest : List Char) : tokens false ('-' :: rest) = .symbol '-' :: tokens false rest :=
    tokens_symbol_inside (by decide)
  have hcolon (rest : List Char) : tokens false (':' :: rest) = .symbol ':' :: tokens false rest :=
    tokens_symbol_inside (by decide)
  have hlast : tokens false d.second = [.number d.second] := tokens_digits d.isDigits_second false
  have hnumbers (opening : Bool) : tokens opening (d.year ++ '-' :: (d.month ++ '-' :: (d.day ++
      ' ' :: (d.hour ++ ':' :: (d.minute ++ ':' :: d.second))))) =
      [.number d.year, .symbol '-', .number d.month, .symbol '-', .number d.day, .number d.hour,
        .symbol ':', .number d.minute, .symbol ':', .number d.second] := by
    rw [tokens_number d.isDigits_year rfl, hdash, tokens_number d.isDigits_month rfl, hdash,
      tokens_number d.isDigits_day rfl, tokens_blank rfl, tokens_number d.isDigits_hour rfl, hcolon,
      tokens_number d.isDigits_minute rfl, hcolon, hlast]
  unfold text
  cases d.negative with
  | false => exact hnumbers true
  | true =>
    have hyear := startsWithDigit_append d.isDigits_year ('-' :: (d.month ++ '-' :: (d.day ++
      ' ' :: (d.hour ++ ':' :: (d.minute ++ ':' :: d.second)))))
    simp only [if_true, List.cons_append, List.nil_append]
    rw [tokens_leadingMinus hyear, hnumbers]

/-- **The scan takes every number for what its place says**, though a month or a day may be as wide
as a whole date: only the first thing found is taken for one. -/
theorem run_text (lenient : Bool) :
    Scan.run lenient .initial (tokens true d.text) = .ok d.scan := by
  have hwidth : Scan.compactYearWidth d.year.length = none := by
    have hlow := d.three_le_year
    have hhigh := d.year_le_seven
    rw [Scan.compactYearWidth, if_neg (by omega), if_neg (by omega), if_neg (by omega)]
  have hsign (rest : List Token) :
      Scan.run lenient .initial ((if d.negative then [.leadingMinus] else []) ++ rest) =
        Scan.run lenient { Scan.initial with minusPending := d.negative } rest := by
    cases d.negative with
    | false => rfl
    | true => exact Scan.run_leadingMinus rfl
  rw [tokens_text, hsign, Scan.run_number (by simp) (.inl hwidth) (by simp [Scan.initial]),
    Scan.run_dash rfl, Scan.run_number (by simp) (.inr rfl) (by simp [Scan.push, Scan.initial]),
    Scan.run_dash rfl, Scan.run_number (by simp) (.inr rfl) (by simp [Scan.push, Scan.initial]),
    Scan.run_clock rfl rfl (by simp), Scan.run_nil]
  rfl

/-! ## 3. What the numbers denote -/

/-- Below the limit a number is counted as it is. -/
theorem count_eq_iff {digits : List Char} {n : Nat} (h : n < countLimit) :
    count digits = n ↔ value digits = n := by
  unfold count
  omega

theorem ofDigits_year :
    Quantity.ofDigits d.negative d.year = ⟨d.signedYear, d.year.length, d.negative⟩ := by
  rw [Quantity.ofDigits, count_eq_value d.isDigits_year d.year_le_seven]
  rfl

/-- The year comes first, since it is too wide for a day. -/
theorem calendarDay_scan :
    d.scan.calendarDay = .ok ⟨d.signedYear, count d.month, count d.day⟩ := by
  have hyear : (Quantity.mk d.signedYear d.year.length d.negative).isYear = true := by
    have hlow := d.three_le_year
    simp only [Quantity.isYear, Bool.or_eq_true, decide_eq_true_eq]
    omega
  simp only [Scan.calendarDay, scan, ofDigits_year, hyear, if_true]
  rfl

variable {d}

/-- **Numbers that denote an instant name a date and a time that exist.**  A number at the limit of
counting is in no range, so what passed the checks was counted as it is written. -/
theorem exists_of_millis_scan {ms : Int} (h : d.scan.millis = .ok ms) :
    d.Exists ∧ ms = d.dateTime.toMillis := by
  obtain ⟨⟨⟨y, mo, da⟩, ⟨ho, mi, se, fraction⟩⟩, ⟨hday, hour, hclock, hhour⟩, ht, hyear, rfl⟩ :=
    Scan.exists_of_millis h
  obtain ⟨⟨hmo, hda1, hda2⟩, hho, hmi, hse, -⟩ := ht
  have hlast := monthLength_le y mo
  obtain ⟨hy, hmonth, hdays⟩ :=
    CalendarDay.mk.inj (Except.ok.inj (d.calendarDay_scan.symm.trans hday))
  obtain ⟨rfl, hminute, hsecond, rfl⟩ := Clock.mk.inj hclock
  have hhour' : count d.hour = ho := Except.ok.inj hhour
  dsimp only at hmo hda1 hda2 hho hmi hse hyear hy hmonth hdays hminute hsecond
  -- each part is in its range, far below the limit, and so is the number that was counted
  have hvalue : ∀ {digits : List Char} {n : Nat}, n < 100 → count digits = n → value digits = n :=
    fun hn => (count_eq_iff (Nat.lt_trans hn (by decide))).mp
  have hmonth' : value d.month = mo + 1 := hvalue (by omega) (by omega)
  have hday' : value d.day = da := hvalue (by omega) (by omega)
  have hhour'' : value d.hour = ho := hvalue (by omega) hhour'
  have hminute' : value d.minute = mi := hvalue (by omega) hminute
  have hsecond' : value d.second = se := hvalue (by omega) hsecond
  simp only [Exists, dateTime, hy, hmonth', hday', hhour'', hminute', hsecond', Nat.add_sub_cancel]
  refine ⟨⟨hyear, ⟨by omega, by omega⟩, ⟨hda1, hda2⟩, by omega, by omega, by omega⟩, ?_⟩
  rw [scan, Option.getD_none, Int.zero_mul, Int.sub_zero]

theorem Exists.valid (h : d.Exists) : d.dateTime.Valid := by
  obtain ⟨-, hmonth, hdays, hhour, hminute, hsecond⟩ := h
  have hzero : 0 < 1000 := by decide
  refine ⟨⟨?_, hdays⟩, ?_, ?_, ?_, hzero⟩ <;> simp only [dateTime] <;> omega

/-- **Numbers that name a date and a time that exist denote their milliseconds.** -/
theorem Exists.millis_scan (h : d.Exists) : d.scan.millis = .ok d.dateTime.toMillis := by
  have hvalid := h.valid
  obtain ⟨hyear, hmonth, hdays, hhour, hminute, hsecond⟩ := h
  have hlast := monthLength_le d.signedYear (value d.month - 1)
  have hcount : ∀ {digits : List Char}, value digits < 100 → count digits = value digits :=
    fun hn => (count_eq_iff (Nat.lt_trans hn (by decide))).mpr rfl
  have hday : d.scan.calendarDay =
      .ok ⟨d.dateTime.date.year, d.dateTime.date.month + 1, d.dateTime.date.day⟩ := by
    rw [d.calendarDay_scan, hcount (by omega), hcount (by omega)]
    simp only [dateTime, Except.ok.injEq, CalendarDay.mk.injEq, true_and, and_true]
    omega
  have hhour' : count d.hour = value d.hour := hcount (by omega)
  have hminute' : count d.minute = value d.minute := hcount (by omega)
  have hsecond' : count d.second = value d.second := hcount (by omega)
  have hclock : d.scan.clockOrMidnight = ⟨value d.hour, d.dateTime.time.minute,
      d.dateTime.time.second, d.dateTime.time.millisecond⟩ := by
    simp only [Scan.clockOrMidnight, scan, Option.getD_some, dateTime, hhour', hminute', hsecond']
  have hshows : d.scan.Shows d.dateTime := ⟨hday, _, hclock, rfl⟩
  exact hshows.millis_utc hvalid hyear rfl

end Dashed

/-- **The text is read exactly if the date and the time exist**, and then as their milliseconds. -/
theorem readMillis_dashed (lenient : Bool) (d : Dashed) (ms : Int) :
    readMillis lenient d.text = .ok ms ↔ d.Exists ∧ ms = d.dateTime.toMillis := by
  have hblank : d.text.all isBlank = false := by
    obtain ⟨c, hc⟩ := List.exists_mem_of_ne_nil _ d.isDigits_year.1
    rw [List.all_eq_false]
    exact ⟨c, by simp [Dashed.text, hc], by simp [not_isBlank_of_isDigit (d.isDigits_year.2 c hc)]⟩
  have hread : readMillis lenient d.text = d.scan.millis := by
    rw [readMillis, hblank, d.run_text]
    rfl
  rw [hread]
  constructor
  · exact Dashed.exists_of_millis_scan
  · rintro ⟨hexists, rfl⟩
    exact hexists.millis_scan

end DateText

namespace Instant

open DateText

/-- **A date with dashes and a clock with colons is read exactly if both exist**, however many
digits their numbers have, and then as the instant of just these fields in UTC. -/
theorem read_dashed_iff (d : Dashed) (x : Instant) :
    (read d.text = .ok x ↔ d.Exists ∧ x = ofDateTime d.dateTime) ∧
      (d.Exists → (ofDateTime d.dateTime).millis.toInt? = some d.dateTime.toMillis ∧
        (ofDateTime d.dateTime).dateTime? = some d.dateTime) := by
  have hfields : d.Exists → (ofDateTime d.dateTime).millis.toInt? = some d.dateTime.toMillis ∧
      (ofDateTime d.dateTime).dateTime? = some d.dateTime :=
    fun hexists => toInt?_ofDateTime hexists.valid hexists.1
  have hinstant : d.Exists → ofMillis (Double.ofInt d.dateTime.toMillis) = ofDateTime d.dateTime :=
    fun hexists => ofMillis_dateTime hexists.valid hexists.1
  refine ⟨?_, hfields⟩
  constructor
  · intro h
    obtain ⟨ms, hms, rfl⟩ := exists_readMillis_of_read h
    obtain ⟨hexists, rfl⟩ := (readMillis_dashed false d ms).mp hms
    exact ⟨hexists, hinstant hexists⟩
  · rintro ⟨hexists, rfl⟩
    rw [read, (readMillis_dashed false d _).mpr ⟨hexists, rfl⟩, Except.map, hinstant hexists]

/-- A day in a year before year 0, with zeros in front of its numbers, and a leap day in a year that
has none, with eight digits. -/
theorem read_dashed_iff_ides :
    let ides : Dashed :=
      { negative := true, year := "0044".toList, month := "003".toList, day := "15".toList,
        hour := "12".toList, minute := "00000000000000000000".toList, second := "7".toList }
    let leapDay : Dashed :=
      { negative := false, year := "2023".toList, month := "02".toList, day := "00000029".toList,
        hour := "0".toList, minute := "0".toList, second := "0".toList }
    ides.text = "-0044-003-15 12:00000000000000000000:7".toList ∧ ides.Exists ∧
      read ides.text = .ok (ofDateTime ⟨⟨-44, 2, 15⟩, ⟨12, 0, 7, 0⟩⟩) ∧
      (ofDateTime ⟨⟨-44, 2, 15⟩, ⟨12, 0, 7, 0⟩⟩).dateTime? = some ⟨⟨-44, 2, 15⟩, ⟨12, 0, 7, 0⟩⟩ ∧
      ¬leapDay.Exists ∧ ∀ x, read leapDay.text ≠ .ok x := by
  intro ides leapDay
  have hides : ides.Exists := by decide +kernel
  have hleapDay : ¬leapDay.Exists := by decide +kernel
  have hdateTime : ides.dateTime = ⟨⟨-44, 2, 15⟩, ⟨12, 0, 7, 0⟩⟩ := by decide +kernel
  obtain ⟨hread, hfields⟩ := read_dashed_iff ides (ofDateTime ides.dateTime)
  refine ⟨by decide +kernel, hides, ?_, ?_, hleapDay, fun x hx => ?_⟩
  · rw [← hdateTime]
    exact hread.mpr ⟨hides, rfl⟩
  · rw [← hdateTime]
    exact (hfields hides).2
  · exact hleapDay ((read_dashed_iff leapDay x).1.mp hx).1

end Instant
end Interchange
