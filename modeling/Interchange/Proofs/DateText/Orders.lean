/-
# Dates in common orders

A date is written in one of six orders: with dashes or slashes from the year down, with slashes and
the month first, or with the name of the month around its numbers.  Numbers below ten may have a
zero in front, and a name may be cut to three letters, in any letter case.  A time of day may
follow, after a blank or a `T`: a clock with or without seconds and their fraction, and the half of
the day.

Nothing announces the order.  The scan tells the orders apart by the widths of the numbers and by
the names, and the clock by its colons.

* `WritesDate`, `WritesClock`, `WritesTime`: what is written for a date, a clock, a time of day;
* `WritesDate.run`: every order is scanned as the date;
* `WritesTime.run`: every time after a date is scanned as the time;
* `read_written`: a written date and time is read as the instant of its fields.
-/
import Interchange.Proofs.DateText.Layouts
import Interchange.Proofs.DateText.Outcomes

namespace Interchange

open Calendar Decimal

def Calendar.fullMonthNames : List (List Char) :=
  ["January", "February", "March", "April", "May", "June", "July", "August", "September",
    "October", "November", "December"].map String.toList

namespace DateText

/-! ## 1. What is written -/

/-- A number of one or two digits, with or without a zero in front of a single one. -/
def IsNumeral (n : Nat) (text : List Char) : Prop := text = digits n ∨ text = padded 2 n

/-- The name of a month in full, and cut to three letters. -/
def monthForms (month : Nat) : List (List Char) :=
  fullMonthNames[month]?.toList.flatMap fun name => [name, name.take 3]

/-- A name of a month, in full or cut to three letters, in any letter case. -/
def IsMonthName (month : Nat) (text : List Char) : Prop :=
  ∃ name ∈ monthForms month, text.map Char.toLower = name.map Char.toLower

def IsStroke (c : Char) : Prop := c = '-' ∨ c = '/'

/-- A date in one of six orders, with a year of at least four digits. -/
inductive WritesDate (d : Date) : List Char → Prop where
  /-- Like `1994-11-15` or `1994/11/15`. -/
  | yearFirst {stroke : Char} {month day : List Char} : IsStroke stroke →
      IsNumeral (d.month + 1) month → IsNumeral d.day day →
      WritesDate d (padded 4 d.year.toNat ++ stroke :: (month ++ stroke :: day))
  /-- Like `11/15/1994`. -/
  | monthFirst {month day : List Char} : IsNumeral (d.month + 1) month → IsNumeral d.day day →
      WritesDate d (month ++ '/' :: (day ++ '/' :: padded 4 d.year.toNat))
  /-- Like `15 Nov 1994`. -/
  | dayName {name day : List Char} : IsMonthName d.month name → IsNumeral d.day day →
      WritesDate d (day ++ ' ' :: (name ++ ' ' :: padded 4 d.year.toNat))
  /-- Like `Nov 15, 1994`. -/
  | nameDay {name day : List Char} : IsMonthName d.month name → IsNumeral d.day day →
      WritesDate d (name ++ ' ' :: (day ++ ',' :: ' ' :: padded 4 d.year.toNat))
  /-- Like `1994 Nov 15`. -/
  | yearName {name day : List Char} : IsMonthName d.month name → IsNumeral d.day day →
      WritesDate d (padded 4 d.year.toNat ++ ' ' :: (name ++ ' ' :: day))

/-- The milliseconds of a fraction of a second: three digits, zeros added on the right. -/
def leadingMillis (fraction : List Char) : Nat := value ((fraction ++ "000".toList).take 3)

/-- A clock with its parts in range, down to the minute, the second or a fraction of it.  The
fraction may have any number of digits. -/
inductive WritesClock : Clock → List Char → Prop where
  | minute {h m : Nat} {hour minute : List Char} : h < 24 → m < 60 → IsNumeral h hour →
      IsNumeral m minute → WritesClock ⟨h, m, 0, 0⟩ (hour ++ ':' :: minute)
  | second {h m s : Nat} {hour minute second : List Char} : h < 24 → m < 60 → s < 60 →
      IsNumeral h hour → IsNumeral m minute → IsNumeral s second →
      WritesClock ⟨h, m, s, 0⟩ (hour ++ ':' :: (minute ++ ':' :: second))
  | fraction {h m s : Nat} {hour minute second fraction : List Char} : h < 24 → m < 60 → s < 60 →
      IsNumeral h hour → IsNumeral m minute → IsNumeral s second → IsDigits fraction →
      WritesClock ⟨h, m, s, leadingMillis fraction⟩
        (hour ++ ':' :: (minute ++ ':' :: (second ++ '.' :: fraction)))

/-- The hour of a day that an hour from 1 to 12 is in one of its halves. -/
def Meridiem.hour : Meridiem → Nat → Nat
  | .am, hour => hour % 12
  | .pm, hour => hour % 12 + 12

def Meridiem.suffix : Meridiem → List Char
  | .am => " AM".toList
  | .pm => " PM".toList

def IsSeparator (c : Char) : Prop := c = ' ' ∨ c = 'T'

/-- A time of day after a date: none at all, which is midnight, a clock, or a clock with the half of
the day. -/
inductive WritesTime : Time → List Char → Prop where
  /-- Nothing is written. -/
  | midnight : WritesTime .midnight []
  | clock {c : Clock} {separator : Char} {text : List Char} : IsSeparator separator →
      WritesClock c text →
      WritesTime ⟨c.hour, c.minute, c.second, c.millisecond⟩ (separator :: text)
  /-- A clock with the half of the day. -/
  | half {c : Clock} {separator : Char} {text : List Char} (half : Meridiem) :
      IsSeparator separator → WritesClock c text → 1 ≤ c.hour → c.hour ≤ 12 →
      WritesTime ⟨half.hour c.hour, c.minute, c.second, c.millisecond⟩
        (separator :: (text ++ half.suffix))

/-! ## 2. Numbers and names -/

theorem IsNumeral.spec {n : Nat} {text : List Char} (h : IsNumeral n text) (hn : n < 100) :
    IsDigits text ∧ text.length ≤ 2 ∧ count text = n := by
  have hone : IsDigits (digits n) := ⟨digits_ne_nil n, fun c hc => isDigit_of_mem_digits hc⟩
  have hwidth : (digits n).length ≤ 2 := (length_digits_le_iff (by decide)).mpr hn
  have hvalue : value text = n → count text = n := by
    intro hvalue
    rw [count, hvalue]
    exact Nat.min_eq_left (by simp only [countLimit]; omega)
  rcases h with rfl | rfl
  · exact ⟨hone, hwidth, hvalue (value_digits n)⟩
  · exact ⟨isDigits_padded 2 n, Nat.le_of_eq (length_padded_two hn), hvalue (value_padded 2 n)⟩

theorem IsNumeral.not_isYear {n : Nat} {text : List Char} (h : IsNumeral n text) (hn : n ≤ 31) :
    IsDigits text ∧ (Quantity.mk n text.length false).isYear = false := by
  obtain ⟨hrun, hlength, -⟩ := h.spec (by omega)
  refine ⟨hrun, ?_⟩
  simp only [Quantity.isYear, Bool.or_eq_false_iff, decide_eq_false_iff_not, true_and]
  omega

/-- A name of a month is a word, and the scan keeps its place in the year. -/
theorem IsMonthName.readWord {month : Nat} {name : List Char} (h : IsMonthName month name)
    (hmonth : month < 12) (s : Scan) :
    IsLetters name ∧ s.readWord name = .ok { s with month := some (month + 1) } := by
  obtain ⟨form, hform, hlower⟩ := h
  have hletters : ∀ month < 12, ∀ form ∈ monthForms month,
      (!form.isEmpty && (form.map Char.toLower).all Char.isAlpha) = true := by decide +kernel
  have hspecial : ∀ month < 12, ∀ form ∈ monthForms month, ∀ special ∈ Scan.specialWords,
      form.map Char.toLower ≠ special.toList := by decide +kernel
  have hindex : ∀ month < 12, ∀ form ∈ monthForms month,
      Scan.nameIndex monthNames form = some month := by decide +kernel
  constructor
  · have hform := hletters month hmonth form hform
    rw [Bool.and_eq_true, Bool.not_eq_true', List.isEmpty_eq_false_iff, ← hlower,
      List.all_eq_true] at hform
    refine ⟨?_, fun c hc => isAlpha_of_toLower (hform.2 _ (List.mem_map_of_mem hc))⟩
    rintro rfl
    exact hform.1 (List.map_eq_nil_iff.mp hlower.symm)
  · refine (Scan.readWord_name ?_).1 month ?_
    · rw [hlower]
      exact hspecial month hmonth form hform
    · rw [Scan.nameIndex_congr hlower]
      exact hindex month hmonth form hform

theorem fractionMillis_eq (fraction : List Char) :
    Scan.fractionMillis fraction = leadingMillis fraction := by
  have htail : "000".toList.take (3 - fraction.length) =
      List.replicate (3 - fraction.length) '0' := by
    have hzeros : "000".toList = List.replicate 3 '0' := rfl
    rw [hzeros, List.take_replicate, Nat.min_eq_left (Nat.sub_le 3 _)]
  rw [Scan.fractionMillis, leadingMillis, List.take_append, htail]

/-- The year of a written date.  It has four digits or more, so that it can only be a year and has
its century. -/
def Quantity.ofYear (year : Int) : Quantity := ⟨year, (padded 4 year.toNat).length, false⟩

/-- The year of a written date is too narrow for a whole date, and too wide for a day. -/
theorem Quantity.ofYear_spec {year : Int} (h : 0 ≤ year ∧ year ≤ lastYear) :
    Quantity.ofDigits false (padded 4 year.toNat) = .ofYear year ∧
      Scan.compactYearWidth (padded 4 year.toNat).length = none ∧
      (ofYear year).isYear = true ∧ (ofYear year).fullYear = year := by
  have hyear : HasYear year := ⟨by simp only [firstYear]; omega, h.2⟩
  have habs : year.natAbs = year.toNat := by omega
  have hsign : decide (year < 0) = false := by simpa using h.1
  obtain ⟨hwidth, hisYear, hfull⟩ := padded_year_spec hyear
  have hfields := ofDigits_padded_year hyear
  rw [habs] at hwidth hisYear hfull hfields
  rw [hsign] at hisYear hfull hfields
  exact ⟨hfields, hwidth, hisYear, hfull⟩

/-! ## 3. The scan of a date -/

namespace Scan

/-- Numbers without a sign, and perhaps the name of a month, are all that was found. -/
def found (numbers : List Quantity) (month : Option Nat) : Scan :=
  ⟨numbers, month, none, none, none, false⟩

variable {lenient : Bool} {numbers : List Quantity} {month : Option Nat} {rest : List Token}

theorem run_short {text : List Char} (h : IsDigits text) (hshort : text.length ≤ 7)
    (hroom : numbers.length < 3) (hcolon : rest.head? ≠ some (.symbol ':')) :
    run lenient (found numbers month) (.number text :: rest) =
      run lenient (found (numbers ++ [⟨value text, text.length, false⟩]) month) rest := by
  have hwidth : compactYearWidth text.length = none := by
    rw [compactYearWidth, if_neg (by omega), if_neg (by omega), if_neg (by omega)]
  have hpush : (found numbers month).push text =
      found (numbers ++ [⟨value text, text.length, false⟩]) month := by
    rw [← count_eq_value h hshort]
    rfl
  rw [run_number hcolon (.inl hwidth) hroom, hpush]

theorem run_numeral {n : Nat} {text : List Char} (h : IsNumeral n text) (hn : n < 100)
    (hroom : numbers.length < 3) (hcolon : rest.head? ≠ some (.symbol ':')) :
    run lenient (found numbers month) (.number text :: rest) =
      run lenient (found (numbers ++ [⟨n, text.length, false⟩]) month) rest := by
  obtain ⟨hrun, hlength, hcount⟩ := h.spec hn
  rw [count_eq_value hrun (by omega)] at hcount
  rw [run_short hrun (by omega) hroom hcolon, hcount]

theorem run_year {year : Int} (h : 0 ≤ year ∧ year ≤ lastYear) (hroom : numbers.length < 3)
    (hcolon : rest.head? ≠ some (.symbol ':')) :
    run lenient (found numbers month) (.number (padded 4 year.toNat) :: rest) =
      run lenient (found (numbers ++ [.ofYear year]) month) rest := by
  obtain ⟨hfields, hwidth, -⟩ := Quantity.ofYear_spec h
  have hpush : (found numbers month).push (padded 4 year.toNat) =
      found (numbers ++ [.ofYear year]) month := by
    rw [← hfields]
    rfl
  rw [run_number hcolon (.inl hwidth) hroom, hpush]

theorem run_monthName {index : Nat} {name : List Char} (h : IsMonthName index name)
    (hindex : index < 12) :
    run lenient (found numbers none) (.word name :: rest) =
      run lenient (found numbers (some (index + 1))) rest :=
  run_word (h.readWord hindex _).2

/-- A scan that has found a date and nothing else.  What follows in the text is then read as a time
of day. -/
structure Dated (s : Scan) (d : Date) : Prop where
  day : s.calendarDay = .ok ⟨d.year, d.month + 1, d.day⟩
  clock : s.clock = none
  offset : s.offsetMinutes = none
  meridiem : s.meridiem = none
  minus : s.minusPending = false

theorem dated_numbers {d : Date} (hyear : 0 ≤ d.year ∧ d.year ≤ lastYear) {m n : Quantity}
    (hm : m.isYear = false ∧ m.value = d.month + 1) (hn : n.value = d.day) :
    (found [.ofYear d.year, m, n] none).Dated d ∧ (found [m, n, .ofYear d.year] none).Dated d := by
  obtain ⟨-, -, hisYear, hfull⟩ := Quantity.ofYear_spec hyear
  have hvalue : (Quantity.ofYear d.year).value = d.year := rfl
  refine ⟨⟨?_, rfl, rfl, rfl, rfl⟩, ⟨?_, rfl, rfl, rfl, rfl⟩⟩
  · simp only [calendarDay, found, hisYear, hvalue, hm, hn, if_true]
  · simp only [calendarDay, found, hfull, hm, hn, Bool.false_eq_true, if_false]

/-- Two numbers with the name of a month are a date with the year first or last. -/
theorem dated_name {d : Date} (hyear : 0 ≤ d.year ∧ d.year ≤ lastYear) {n : Quantity}
    (hn : n.isYear = false ∧ n.value = d.day) :
    (found [n, .ofYear d.year] (some (d.month + 1))).Dated d ∧
      (found [.ofYear d.year, n] (some (d.month + 1))).Dated d := by
  obtain ⟨-, -, hisYear, hfull⟩ := Quantity.ofYear_spec hyear
  refine ⟨⟨?_, rfl, rfl, rfl, rfl⟩, ⟨?_, rfl, rfl, rfl, rfl⟩⟩
  · simp only [calendarDay, found, hfull, hn, Bool.false_eq_true, if_false, Nat.cast_add,
      Nat.cast_one]
  · simp only [calendarDay, found, hisYear, hfull, hn, if_true, Nat.cast_add, Nat.cast_one]

end Scan

theorem IsStroke.startsWithDigit {c : Char} (h : IsStroke c) (rest : List Char) :
    startsWithDigit (c :: rest) = false := by
  rcases h with rfl | rfl <;> rfl

theorem IsStroke.tokens {c : Char} (h : IsStroke c) (rest : List Char) :
    tokens false (c :: rest) = .symbol c :: tokens false rest := by
  rcases h with rfl | rfl <;> exact tokens_symbol_inside (by decide)

/-- A dash or a slash between the numbers of a date only separates. -/
theorem IsStroke.run {c : Char} (h : IsStroke c) {lenient : Bool} {s : Scan} {rest : List Token}
    (hclock : s.clock = none) :
    Scan.run lenient s (.symbol c :: rest) = Scan.run lenient s rest := by
  rcases h with rfl | rfl
  · exact Scan.run_dash hclock
  · exact Scan.run_slash

/-- **Every order is scanned as the date**, as long as no digit and no colon follows. -/
theorem WritesDate.run {d : Date} {text rest : List Char} (h : WritesDate d text) (hd : d.Valid)
    (hyear : 0 ≤ d.year ∧ d.year ≤ lastYear) (lenient : Bool)
    (hrest : startsWithDigit rest = false)
    (hcolon : (tokens false rest).head? ≠ some (.symbol ':')) :
    ∃ s, s.Dated d ∧
      Scan.run lenient .initial (tokens true (text ++ rest)) =
        Scan.run lenient s (tokens false rest) := by
  have hinitial : Scan.initial = .found [] none := rfl
  have hyr := isDigits_padded 4 d.year.toNat
  have hmonth : d.month < 12 := hd.1
  have hday : d.day ≤ 31 := Nat.le_trans hd.2.2 (monthLength_le d.year d.month)
  rw [hinitial]
  cases h with
  | @yearFirst stroke month day hstroke hm hn =>
    obtain ⟨hmr, hms⟩ := hm.not_isYear (by omega)
    obtain ⟨hnr, -⟩ := hn.not_isYear hday
    have hnoColon : stroke ≠ ':' := by rcases hstroke with rfl | rfl <;> decide
    refine ⟨_, (Scan.dated_numbers (n := ⟨d.day, day.length, false⟩) hyear ⟨hms, rfl⟩ rfl).1, ?_⟩
    simp only [List.append_assoc, List.cons_append]
    rw [tokens_number hyr (hstroke.startsWithDigit _), hstroke.tokens,
      tokens_number hmr (hstroke.startsWithDigit _), hstroke.tokens, tokens_number hnr hrest,
      Scan.run_year hyear (by simp) (by simpa using hnoColon), hstroke.run rfl,
      Scan.run_numeral hm (by omega) (by simp) (by simpa using hnoColon), hstroke.run rfl,
      Scan.run_numeral hn (by omega) (by simp) hcolon]
    rfl
  | @monthFirst month day hm hn =>
    obtain ⟨hmr, hms⟩ := hm.not_isYear (by omega)
    obtain ⟨hnr, -⟩ := hn.not_isYear hday
    refine ⟨_, (Scan.dated_numbers (n := ⟨d.day, day.length, false⟩) hyear ⟨hms, rfl⟩ rfl).2, ?_⟩
    simp only [List.append_assoc, List.cons_append]
    rw [tokens_number hmr rfl, tokens_symbol_inside (by decide), tokens_number hnr rfl,
      tokens_symbol_inside (by decide), tokens_number hyr hrest,
      Scan.run_numeral hm (by omega) (by simp) (by simp), Scan.run_slash,
      Scan.run_numeral hn (by omega) (by simp) (by simp), Scan.run_slash,
      Scan.run_year hyear (by simp) hcolon]
    rfl
  | dayName hname hn =>
    obtain ⟨hnr, hns⟩ := hn.not_isYear hday
    have hletters := (hname.readWord hmonth .initial).1
    refine ⟨_, (Scan.dated_name hyear ⟨hns, rfl⟩).1, ?_⟩
    simp only [List.append_assoc, List.cons_append]
    rw [tokens_number hnr rfl, tokens_blank rfl, tokens_word hletters rfl, tokens_blank rfl,
      tokens_number hyr hrest, Scan.run_numeral hn (by omega) (by simp) (by simp),
      Scan.run_monthName hname hmonth, Scan.run_year hyear (by simp) hcolon]
    rfl
  | nameDay hname hn =>
    obtain ⟨hnr, hns⟩ := hn.not_isYear hday
    have hletters := (hname.readWord hmonth .initial).1
    refine ⟨_, (Scan.dated_name hyear ⟨hns, rfl⟩).1, ?_⟩
    simp only [List.append_assoc, List.cons_append]
    rw [tokens_word hletters rfl, tokens_blank rfl, tokens_number hnr rfl,
      tokens_symbol_inside (by decide), tokens_blank rfl, tokens_number hyr hrest,
      Scan.run_monthName hname hmonth, Scan.run_numeral hn (by omega) (by simp) (by simp),
      Scan.run_comma, Scan.run_year hyear (by simp) hcolon]
    rfl
  | yearName hname hn =>
    obtain ⟨hnr, hns⟩ := hn.not_isYear hday
    have hletters := (hname.readWord hmonth .initial).1
    refine ⟨_, (Scan.dated_name hyear ⟨hns, rfl⟩).2, ?_⟩
    simp only [List.append_assoc, List.cons_append]
    rw [tokens_number hyr rfl, tokens_blank rfl, tokens_word hletters rfl, tokens_blank rfl,
      tokens_number hnr hrest, Scan.run_year hyear (by simp) (by simp),
      Scan.run_monthName hname hmonth, Scan.run_numeral hn (by omega) (by simp) hcolon]
    rfl

/-! ## 4. The scan of a time -/

theorem WritesClock.starts {c : Clock} {text : List Char} (h : WritesClock c text) :
    ∃ hour more, IsDigits hour ∧ text = hour ++ ':' :: more := by
  cases h with
  | minute hh _ ihour => exact ⟨_, _, (ihour.spec (by omega)).1, rfl⟩
  | second hh _ _ ihour => exact ⟨_, _, (ihour.spec (by omega)).1, rfl⟩
  | fraction hh _ _ ihour => exact ⟨_, _, (ihour.spec (by omega)).1, rfl⟩

theorem leadingMillis_lt {fraction : List Char} (h : IsDigits fraction) :
    leadingMillis fraction < 1000 := by
  rw [← fractionMillis_eq]
  exact Scan.fractionMillis_lt h

/-- The parts of a clock are in range, whatever hour of the day it is in. -/
theorem WritesClock.valid {c : Clock} {text : List Char} (h : WritesClock c text) {hour : Nat}
    (hhour : hour < 24) : Time.Valid ⟨hour, c.minute, c.second, c.millisecond⟩ := by
  have hzero : 0 < 60 ∧ 0 < 1000 := by decide
  cases h with
  | minute _ hm => exact ⟨hhour, hm, hzero⟩
  | second _ hm hs => exact ⟨hhour, hm, hs, hzero.2⟩
  | fraction _ hm hs _ _ _ hf => exact ⟨hhour, hm, hs, leadingMillis_lt hf⟩

theorem WritesClock.hour_lt {c : Clock} {text : List Char} (h : WritesClock c text) :
    c.hour < 24 := by
  cases h <;> assumption

/-- **Every clock is scanned as the clock**, as long as nothing follows that belongs to it. -/
theorem WritesClock.run {c : Clock} {text rest : List Char} (h : WritesClock c text)
    {opening lenient : Bool} {s : Scan} (hclock : s.clock = none) (hminus : s.minusPending = false)
    (hrest : startsWithDigit rest = false)
    (hsymbol : ∀ c, (tokens false rest).head? ≠ some (.symbol c)) :
    Scan.run lenient s (tokens opening (text ++ rest)) =
      Scan.run lenient { s with clock := some c } (tokens false rest) := by
  have hcolon (rest : List Char) : tokens false (':' :: rest) = .symbol ':' :: tokens false rest :=
    tokens_symbol_inside (by decide)
  have hpoint (rest : List Char) : tokens false ('.' :: rest) = .symbol '.' :: tokens false rest :=
    tokens_symbol_inside (by decide)
  cases h with
  | minute hh hm ihour iminute =>
    obtain ⟨hhr, -, hhc⟩ := ihour.spec (by omega)
    obtain ⟨hmr, -, hmc⟩ := iminute.spec (by omega)
    simp only [List.append_assoc, List.cons_append]
    rw [tokens_number hhr rfl, hcolon, tokens_number hmr hrest,
      Scan.run_hour hminus (Scan.readClock_minute hclock (hsymbol ':')), hhc, hmc]
  | second hh hm hs ihour iminute isecond =>
    obtain ⟨hhr, -, hhc⟩ := ihour.spec (by omega)
    obtain ⟨hmr, -, hmc⟩ := iminute.spec (by omega)
    obtain ⟨hsr, -, hsc⟩ := isecond.spec (by omega)
    simp only [List.append_assoc, List.cons_append]
    rw [tokens_number hhr rfl, hcolon, tokens_number hmr rfl, hcolon, tokens_number hsr hrest,
      Scan.run_hour hminus (Scan.readClock_second hclock (hsymbol '.')), hhc, hmc, hsc]
  | fraction hh hm hs ihour iminute isecond hf =>
    obtain ⟨hhr, -, hhc⟩ := ihour.spec (by omega)
    obtain ⟨hmr, -, hmc⟩ := iminute.spec (by omega)
    obtain ⟨hsr, -, hsc⟩ := isecond.spec (by omega)
    simp only [List.append_assoc, List.cons_append]
    rw [tokens_number hhr rfl, hcolon, tokens_number hmr rfl, hcolon, tokens_number hsr rfl, hpoint,
      tokens_number hf hrest, Scan.run_hour hminus (Scan.readClock_fraction hclock), hhc, hmc, hsc,
      fractionMillis_eq]

/-- **A blank or a `T` before a clock only separates.** -/
theorem IsSeparator.run {c : Char} (h : IsSeparator c) {text : List Char} {clock : Clock}
    (hclock : WritesClock clock text) (lenient : Bool) (s : Scan) (rest : List Char) :
    (tokens false (c :: (text ++ rest))).head? ≠ some (.symbol ':') ∧
      ∃ opening, Scan.run lenient s (tokens false (c :: (text ++ rest))) =
        Scan.run lenient s (tokens opening (text ++ rest)) := by
  obtain ⟨hour, more, hhour, rfl⟩ := hclock.starts
  rcases h with rfl | rfl
  · rw [tokens_blank rfl]
    refine ⟨?_, true, rfl⟩
    rw [List.append_assoc, List.cons_append, tokens_number hhour rfl]
    simp
  · have hword : IsLetters ['T'] := isLetters_of_all (by decide)
    have hletter : startsWithLetter (hour ++ ':' :: more ++ rest) = false := by
      obtain ⟨first, others, rfl⟩ := List.exists_cons_of_ne_nil hhour.1
      exact not_isAlpha_of_isDigit (hhour.2 first List.mem_cons_self)
    rw [← List.singleton_append, tokens_word hword hletter, Scan.run_word rfl]
    exact ⟨by simp, false, rfl⟩

theorem IsSeparator.startsWithDigit {c : Char} (h : IsSeparator c) (rest : List Char) :
    startsWithDigit (c :: rest) = false := by
  rcases h with rfl | rfl <;> rfl

theorem WritesTime.starts {t : Time} {text : List Char} (h : WritesTime t text) :
    startsWithDigit text = false ∧ (tokens false text).head? ≠ some (.symbol ':') := by
  cases h with
  | midnight => exact ⟨rfl, by simp⟩
  | clock hsep hclock =>
    have hhead := (hsep.run hclock false .initial []).1
    rw [List.append_nil] at hhead
    exact ⟨hsep.startsWithDigit _, hhead⟩
  | half half hsep hclock =>
    exact ⟨hsep.startsWithDigit _, (hsep.run hclock false .initial half.suffix).1⟩

theorem WritesTime.valid {t : Time} {text : List Char} (h : WritesTime t text) : t.Valid := by
  cases h with
  | midnight => decide
  | clock _ hclock => exact hclock.valid hclock.hour_lt
  | half half _ hclock =>
    refine hclock.valid ?_
    cases half <;> simp only [Meridiem.hour] <;> omega

/-- The half of the day is a word, and the scan keeps it. -/
theorem Meridiem.run_suffix (half : Meridiem) (lenient : Bool) (s : Scan) :
    startsWithDigit half.suffix = false ∧
      (∀ c, (tokens false half.suffix).head? ≠ some (.symbol c)) ∧
      Scan.run lenient s (tokens false half.suffix) = .ok { s with meridiem := some half } := by
  have ham : tokens false Meridiem.am.suffix = [.word "AM".toList] := by decide +kernel
  have hpm : tokens false Meridiem.pm.suffix = [.word "PM".toList] := by decide +kernel
  cases half with
  | am =>
    rw [ham, Scan.run_word rfl, Scan.run_nil]
    exact ⟨rfl, by simp, rfl⟩
  | pm =>
    rw [hpm, Scan.run_word rfl, Scan.run_nil]
    exact ⟨rfl, by simp, rfl⟩

/-- A date and a clock without a zone denote the milliseconds of their fields. -/
theorem Scan.millis_of_clock {s : Scan} {d : Date} {c : Clock} {hour : Nat}
    (hday : s.calendarDay = .ok ⟨d.year, d.month + 1, d.day⟩) (hclock : s.clockOrMidnight = c)
    (hhour : hour24 s.meridiem c.hour = .ok hour) (hoffset : s.offsetMinutes = none)
    (hd : d.Valid) (hyear : HasYear d.year)
    (ht : Time.Valid ⟨hour, c.minute, c.second, c.millisecond⟩) :
    s.millis = .ok (DateTime.toMillis ⟨d, ⟨hour, c.minute, c.second, c.millisecond⟩⟩) := by
  have hshows : s.Shows ⟨d, ⟨hour, c.minute, c.second, c.millisecond⟩⟩ :=
    ⟨hday, c.hour, hclock, hhour⟩
  refine hshows.millis_utc ⟨hd, ht⟩ hyear ?_
  rw [hoffset, Option.getD_none]

theorem Meridiem.hour24_eq (half : Meridiem) {hour : Nat} (h : 1 ≤ hour ∧ hour ≤ 12) :
    Scan.hour24 (some half) hour = .ok (half.hour hour) := by
  cases half <;> simp only [Scan.hour24, Meridiem.hour, if_pos h]

/-- **Every time after a date is scanned as the time.**  The date is complete by then, so that no
number behind it can be taken for a part of it. -/
theorem WritesTime.run {d : Date} {t : Time} {text : List Char} (h : WritesTime t text)
    (hd : d.Valid) (hyear : HasYear d.year) (lenient : Bool) {s : Scan} (hs : s.Dated d) :
    ∃ s', Scan.run lenient s (tokens false text) = .ok s' ∧
      s'.millis = .ok (DateTime.toMillis ⟨d, t⟩) := by
  have hvalid := h.valid
  cases h with
  | midnight =>
    refine ⟨s, by rw [tokens_nil, Scan.run_nil], ?_⟩
    have hclock : s.clockOrMidnight = ⟨0, 0, 0, 0⟩ := by rw [Scan.clockOrMidnight, hs.clock]; rfl
    have hhour : Scan.hour24 s.meridiem 0 = .ok 0 := by rw [hs.meridiem]; rfl
    have hmillis := Scan.millis_of_clock hs.day hclock hhour hs.offset hd hyear hvalid
    exact hmillis
  | @clock c separator text hsep hclock =>
    obtain ⟨-, opening, hrun⟩ := hsep.run hclock lenient s []
    refine ⟨{ s with clock := some c }, ?_, ?_⟩
    · have hscan : Scan.run lenient s (tokens opening (text ++ [])) =
          Scan.run lenient { s with clock := some c } (tokens false []) :=
        hclock.run hs.clock hs.minus rfl (by simp)
      rw [tokens_nil, Scan.run_nil] at hscan
      rw [List.append_nil] at hrun hscan
      rw [hrun, hscan]
    · have hhour : Scan.hour24 s.meridiem c.hour = .ok c.hour := by rw [hs.meridiem]; rfl
      exact Scan.millis_of_clock (s := { s with clock := some c }) hs.day rfl hhour hs.offset hd
        hyear hvalid
  | @half c separator text half hsep hclock h1 h12 =>
    obtain ⟨-, opening, hrun⟩ := hsep.run hclock lenient s half.suffix
    obtain ⟨hdigit, hsymbol, hsuffix⟩ := half.run_suffix lenient { s with clock := some c }
    refine ⟨{ s with clock := some c, meridiem := some half }, ?_, ?_⟩
    · rw [hrun, hclock.run hs.clock hs.minus hdigit hsymbol, hsuffix]
    · exact Scan.millis_of_clock (s := { s with clock := some c, meridiem := some half }) hs.day rfl
        (half.hour24_eq ⟨h1, h12⟩) hs.offset hd hyear hvalid

/-! ## 5. Written dates and times -/

theorem WritesDate.not_blank {d : Date} {text : List Char} (h : WritesDate d text)
    (rest : List Char) : (text ++ rest).all isBlank = false := by
  obtain ⟨c, hc⟩ := List.exists_mem_of_ne_nil _ (isDigits_padded 4 d.year.toNat).1
  have hmem : c ∈ text ++ rest := by
    cases h <;> simp [hc]
  rw [List.all_eq_false]
  exact ⟨c, hmem, by simp [not_isBlank_of_isDigit (isDigit_of_mem_padded hc)]⟩

/-- **A written date and time is read as its milliseconds**, by a strict and by a lenient scan. -/
theorem readMillis_written (lenient : Bool) {d : Date} {t : Time} {date time : List Char}
    (hd : d.Valid) (hyear : 0 ≤ d.year ∧ d.year ≤ lastYear) (hdate : WritesDate d date)
    (htime : WritesTime t time) :
    readMillis lenient (date ++ time) = .ok (DateTime.toMillis ⟨d, t⟩) := by
  have hhas : HasYear d.year := ⟨by simp only [firstYear]; omega, hyear.2⟩
  obtain ⟨hdigit, hcolon⟩ := htime.starts
  obtain ⟨s, hdated, hrun⟩ := hdate.run hd hyear lenient hdigit hcolon
  obtain ⟨s', hrun', hmillis⟩ := htime.run hd hhas lenient hdated
  rw [readMillis, hdate.not_blank time, hrun, hrun']
  exact hmillis

end DateText

namespace Instant

open DateText

/-- **A date and a time of day are read from every text that writes them**, as the instant of
their fields in UTC. -/
theorem read_written {d : Date} {t : Time} {date time : List Char} (hd : d.Valid)
    (hyear : 0 ≤ d.year ∧ d.year ≤ lastYear) (hdate : WritesDate d date)
    (htime : WritesTime t time) :
    read (date ++ time) = .ok (ofDateTime ⟨d, t⟩) ∧
      (ofDateTime ⟨d, t⟩).millis.toInt? = some (DateTime.toMillis ⟨d, t⟩) ∧
      (ofDateTime ⟨d, t⟩).dateTime? = some ⟨d, t⟩ := by
  have hhas : HasYear d.year := ⟨by simp only [firstYear]; omega, hyear.2⟩
  have hvalid : DateTime.Valid ⟨d, t⟩ := ⟨hd, htime.valid⟩
  have hread := readMillis_written false hd hyear hdate htime
  have hrange := DateTime.toMillis_bounds hvalid hhas
  have hmillis : (ofDateTime ⟨d, t⟩).millis = Double.ofInt (DateTime.toMillis ⟨d, t⟩) := rfl
  have hexact := Double.toInt?_ofInt (fits_millis hrange)
  have hfinite := Double.isFinite_of_toInt? hexact
  have hfloor := Double.floor?_of_toInt? hexact
  rw [← hmillis] at hexact hfloor
  refine ⟨?_, hexact, ?_⟩
  · rw [read, hread, Except.map, ofMillis, if_pos hfinite, ← hmillis]
  · rw [dateTime?_eq_some_iff hfloor]
    exact ⟨hrange, (DateTime.ofMillis_toMillis hvalid).symm⟩

/-- The first hour of a day in a year below 1000, with one digit of a fraction. -/
theorem read_written_after_midnight :
    let d : Date := ⟨994, 10, 5⟩
    let t : Time := ⟨0, 7, 3, 200⟩
    d.Valid ∧ WritesDate d "nOVEMBER 5, 0994".toList ∧ WritesTime t "T12:07:3.2 AM".toList ∧
      read "nOVEMBER 5, 0994T12:07:3.2 AM".toList = .ok (ofDateTime ⟨d, t⟩) := by
  intro d t
  have hd : d.Valid := by decide
  have hyear : 0 ≤ d.year ∧ d.year ≤ lastYear := by decide
  have hdate : WritesDate d "nOVEMBER 5, 0994".toList := by
    have htext : "nOVEMBER 5, 0994".toList = "nOVEMBER".toList ++ ' ' :: ("5".toList ++
        ',' :: ' ' :: padded 4 d.year.toNat) := by decide +kernel
    rw [htext]
    exact .nameDay ⟨"November".toList, by decide +kernel, by decide +kernel⟩
      (.inl (by decide +kernel))
  have htime : WritesTime t "T12:07:3.2 AM".toList := by
    have htext : "T12:07:3.2 AM".toList = 'T' :: (("12".toList ++ ':' :: ("07".toList ++
        ':' :: ("3".toList ++ '.' :: "2".toList))) ++ Meridiem.am.suffix) := by decide +kernel
    have hdigits : IsDigits "2".toList := ⟨by decide, List.all_eq_true.mp (by decide +kernel)⟩
    rw [htext]
    have hclock : WritesClock ⟨12, 7, 3, 200⟩ ("12".toList ++ ':' :: ("07".toList ++
        ':' :: ("3".toList ++ '.' :: "2".toList))) :=
      .fraction (by decide) (by decide) (by decide) (.inl (by decide +kernel))
        (.inr (by decide +kernel)) (.inl (by decide +kernel)) hdigits
    exact .half .am (.inr rfl) hclock (by decide) (by decide)
  have htext : "nOVEMBER 5, 0994T12:07:3.2 AM".toList =
      "nOVEMBER 5, 0994".toList ++ "T12:07:3.2 AM".toList := by decide +kernel
  rw [htext]
  exact ⟨hd, hdate, htime, (read_written hd hyear hdate htime).1⟩

end Instant
end Interchange
