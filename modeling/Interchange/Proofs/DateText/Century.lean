/-
# Years without a century

A number that cannot be a day is a year wherever it stands, so a date can begin with one: in front
of the number of a month and a day, or in front of the name of the month.  Behind it, both forms
name the same month and day.  The year with the name is expanded if it has two digits, below 50 into
this century and else into the last one; the year in front of numbers is taken as it is written.
Of the arms of `calendar` that give a date, the one for a year in front of two numbers is the only
one that leaves `expand_year` out.

* `YearFirst`: such a date, in both forms;
* `toOption_read_of_dated`: what a text is read as whose scan found a date;
* `read_yearFirst`: what both forms are read as, and when it is the same.
-/
import Interchange.Proofs.DateText.Acceptance
import Interchange.Proofs.DateText.Orders

namespace Interchange

open Calendar Decimal

/-! ## 1. Years of one leap rule -/

namespace Calendar

/-- Years that are both leap years, or both not, have months of the same lengths. -/
theorem monthLength_congr {y z : Int} (h : isLeap y = isLeap z) (month : Nat) :
    monthLength y month = monthLength z month := by
  rw [monthLength, monthLengths, h]
  rfl

/-- Between 32 and 99, a year without its century is a leap year with it: the centuries that are
added, 1900 and 2000, are not told apart by the fours, and neither year is a full century. -/
theorem isLeap_century {y : Int} (hlow : 31 < y) (hhigh : y < 100) :
    isLeap (1900 + y) = isLeap y ∧ isLeap (2000 + y) = isLeap y := by
  constructor <;> rw [Bool.eq_iff_iff] <;>
    simp only [isLeap, Bool.and_eq_true, Bool.or_eq_true, decide_eq_true_eq, bne_iff_ne, ne_eq] <;>
    omega

end Calendar

namespace DateText

/-! ## 2. Dates with the year first -/

/-- A date with the year first, the month by its number and by its name.  The year has at most six
digits, and it can only be a year: it has at least three, or it is too large for a day.  Months are
counted from 0. -/
structure YearFirst where
  year : List Char
  month : Nat
  numeral : List Char
  name : List Char
  day : List Char
  isDigits_year : IsDigits year
  year_le_six : year.length ≤ 6
  isYear : 3 ≤ year.length ∨ 31 < value year
  month_lt : month < 12
  isNumeral : IsNumeral (month + 1) numeral
  isMonthName : IsMonthName month name
  isDigits_day : IsDigits day
  day_le_two : day.length ≤ 2

namespace YearFirst

variable (d : YearFirst)

/-- With the month by its number, like `1994-11-15`. -/
def numeric : List Char := d.year ++ '-' :: (d.numeral ++ '-' :: d.day)

/-- With the month by its name, like `1994 Nov 15`. -/
def named : List Char := d.year ++ ' ' :: (d.name ++ ' ' :: d.day)

def plain : Date := ⟨value d.year, d.month, value d.day⟩

/-- The year with its century: one of two digits is from 1950 to 2049. -/
def fullYear : Int :=
  if d.year.length ≤ 2 then
    if value d.year < 50 then 2000 + value d.year else 1900 + value d.year
  else value d.year

def full : Date := ⟨d.fullYear, d.month, value d.day⟩

/-! ## 3. The scan -/

def quantity : Quantity := ⟨value d.year, d.year.length, false⟩

theorem isYear_quantity : d.quantity.isYear = true := by
  rcases d.isYear with hlong | hlarge
  · simp [Quantity.isYear, quantity, hlong]
  · simp [Quantity.isYear, quantity, hlarge]

theorem fullYear_quantity : d.quantity.fullYear = d.fullYear := by
  have hsmall : (value d.year : Int) < 50 ↔ value d.year < 50 := by omega
  simp only [Quantity.fullYear, quantity, true_and, fullYear, hsmall]

theorem run_yearFirst {lenient : Bool} {rest : List Token}
    (hcolon : rest.head? ≠ some (.symbol ':')) :
    Scan.run lenient .initial (.number d.year :: rest) =
      Scan.run lenient (.found [d.quantity] none) rest := by
  have hinitial : Scan.initial = .found [] none := rfl
  rw [hinitial, Scan.run_short d.isDigits_year (Nat.le_succ_of_le d.year_le_six) (by simp) hcolon]
  rfl

theorem run_dayLast {lenient : Bool} {numbers : List Quantity} {month : Option Nat}
    (hroom : numbers.length < 3) :
    Scan.run lenient (.found numbers month) [.number d.day] =
      .ok (.found (numbers ++ [⟨value d.day, d.day.length, false⟩]) month) := by
  have hday := d.day_le_two
  rw [Scan.run_short d.isDigits_day (by omega) hroom (by simp), Scan.run_nil]

theorem run_numeric (lenient : Bool) :
    ∃ s, Scan.run lenient .initial (tokens true d.numeric) = .ok s ∧ s.Dated d.plain := by
  have hmonth := d.month_lt
  have hdash (rest : List Char) : tokens false ('-' :: rest) = .symbol '-' :: tokens false rest :=
    tokens_symbol_inside (by decide)
  obtain ⟨hnumeral, -⟩ := d.isNumeral.spec (by omega)
  refine ⟨.found [d.quantity, ⟨d.month + 1, d.numeral.length, false⟩,
    ⟨value d.day, d.day.length, false⟩] none, ?_, ?_, rfl, rfl, rfl, rfl⟩
  · rw [numeric, tokens_number d.isDigits_year rfl, hdash, tokens_number hnumeral rfl, hdash,
      tokens_digits d.isDigits_day, d.run_yearFirst (by simp), Scan.run_dash rfl,
      Scan.run_numeral d.isNumeral (by omega) (by simp) (by simp), Scan.run_dash rfl,
      d.run_dayLast (by simp)]
    rfl
  · simp only [Scan.calendarDay, Scan.found, d.isYear_quantity, if_true]
    rfl

theorem run_named (lenient : Bool) :
    ∃ s, Scan.run lenient .initial (tokens true d.named) = .ok s ∧ s.Dated d.full := by
  have hletters := (d.isMonthName.readWord d.month_lt .initial).1
  refine ⟨.found [d.quantity, ⟨value d.day, d.day.length, false⟩] (some (d.month + 1)), ?_, ?_, rfl,
    rfl, rfl, rfl⟩
  · rw [named, tokens_number d.isDigits_year rfl, tokens_blank rfl, tokens_word hletters rfl,
      tokens_blank rfl, tokens_digits d.isDigits_day, d.run_yearFirst (by simp),
      Scan.run_monthName d.isMonthName d.month_lt, d.run_dayLast (by simp)]
    rfl
  · simp only [Scan.calendarDay, Scan.found, d.isYear_quantity, if_true, d.fullYear_quantity]
    rfl

/-! ## 4. The two dates -/

variable {d}

theorem full_eq_plain (h : 3 ≤ d.year.length) : d.full = d.plain := by
  have hfull : d.fullYear = value d.year := if_neg (by omega)
  rw [full, hfull, plain]

/-- A year of two digits is too large for a day, and gets one of two centuries. -/
theorem fullYear_of_short (h : d.year.length ≤ 2) : 31 < value d.year ∧ value d.year < 100 ∧
    (d.fullYear = 1900 + value d.year ∨ d.fullYear = 2000 + value d.year) := by
  refine ⟨d.isYear.resolve_left (by omega), ?_, ?_⟩
  · calc value d.year < powerOfTen d.year.length := value_lt d.isDigits_year.2
      _ ≤ powerOfTen 2 := Nat.pow_le_pow_right (by decide) h
  · rw [fullYear, if_pos h]
    split
    · exact .inr rfl
    · exact .inl rfl

theorem valid_full_iff (h : d.year.length ≤ 2) : d.full.Valid ↔ d.plain.Valid := by
  obtain ⟨hlow, hhigh, hfull⟩ := fullYear_of_short h
  obtain ⟨hlast, hthis⟩ :=
    isLeap_century (y := value d.year) (by omega) (by omega)
  have hleap : isLeap d.fullYear = isLeap (value d.year) := by
    rcases hfull with hfull | hfull <;> rw [hfull] <;> assumption
  simp only [Date.Valid, full, plain, monthLength_congr hleap]

/-- Both dates are in years of the calendar. -/
theorem hasYear_of_short (h : d.year.length ≤ 2) :
    HasYear d.plain.year ∧ HasYear d.full.year ∧ d.full.year ≠ d.plain.year := by
  obtain ⟨hlow, hhigh, hfull⟩ := fullYear_of_short h
  simp only [HasYear, firstYear, lastYear, plain, full]
  omega

theorem not_blank (d : YearFirst) (rest : List Char) : (d.year ++ rest).all isBlank = false := by
  obtain ⟨c, hc⟩ := List.exists_mem_of_ne_nil _ d.isDigits_year.1
  rw [List.all_eq_false]
  exact ⟨c, List.mem_append_left _ hc, by simp [not_isBlank_of_isDigit (d.isDigits_year.2 c hc)]⟩

end YearFirst

/-- **A scan that found a date denotes midnight of that day**, if the day exists in a year of the
calendar. -/
theorem toOption_read_of_dated {text : List Char} {s : Scan} {d : Date}
    (hblank : text.all isBlank = false)
    (hrun : Scan.run false .initial (tokens true text) = .ok s) (hs : s.Dated d) :
    (Instant.read text).toOption =
      if d.Valid ∧ HasYear d.year then some (.ofDateTime ⟨d, .midnight⟩) else none := by
  split
  · next hd =>
    have hvalid : DateTime.Valid ⟨d, .midnight⟩ := ⟨hd.1, WritesTime.midnight.valid⟩
    obtain ⟨s', hend, hmillis⟩ := WritesTime.midnight.run hd.1 hd.2 false hs
    rw [tokens_nil, Scan.run_nil] at hend
    obtain rfl := Except.ok.inj hend
    have hread : readMillis false text = .ok (DateTime.toMillis ⟨d, .midnight⟩) := by
      rw [readMillis, hblank, hrun]
      exact hmillis
    rw [Instant.read, hread, Except.map, Instant.ofMillis_dateTime hvalid hd.2]
    rfl
  · next hd =>
    cases hread : Instant.read text with
    | error e => rfl
    | ok x =>
      -- what is denoted is a date that exists, and it is this one
      obtain ⟨ms, hms, -⟩ := Instant.exists_readMillis_of_read hread
      obtain ⟨-, s', hrun', hmillis⟩ := exists_run_of_readMillis hms
      obtain rfl := Except.ok.inj (hrun.symm.trans hrun')
      obtain ⟨t, hshows, ht, hyear, -⟩ := Scan.exists_of_millis hmillis
      have hdate : t.date = d := by
        obtain ⟨hyear', hmonth, hdays⟩ :=
          CalendarDay.mk.inj (Except.ok.inj (hshows.day.symm.trans hs.day))
        cases hdate : t.date
        cases d
        simp only [hdate, Date.mk.injEq] at hyear' hmonth hdays ⊢
        omega
      exact absurd ⟨hdate ▸ ht.1, hdate ▸ hyear⟩ hd

end DateText

namespace Instant

open DateText

/-- **A date with the year first is read as midnight of its day**, if that day exists: with numbers
in the year as it is written, with the name of the month in the year with its century.  Both are
read as the same, or neither is read, exactly if the year has three digits or the day does not
exist. -/
theorem read_yearFirst (d : YearFirst) :
    (read d.numeric).toOption = (if d.plain.Valid ∧ HasYear d.plain.year then
        some (ofDateTime ⟨d.plain, .midnight⟩) else none) ∧
      (read d.named).toOption = (if d.full.Valid ∧ HasYear d.full.year then
        some (ofDateTime ⟨d.full, .midnight⟩) else none) ∧
      ((read d.numeric).toOption = (read d.named).toOption ↔
        3 ≤ d.year.length ∨ ¬d.plain.Valid) := by
  obtain ⟨s, hrun, hs⟩ := d.run_numeric false
  obtain ⟨s', hrun', hs'⟩ := d.run_named false
  have hblank : d.numeric.all isBlank = false := d.not_blank _
  have hblank' : d.named.all isBlank = false := d.not_blank _
  have hnumeric := toOption_read_of_dated hblank hrun hs
  have hnamed := toOption_read_of_dated hblank' hrun' hs'
  refine ⟨hnumeric, hnamed, ?_⟩
  rw [hnumeric, hnamed]
  by_cases hlong : 3 ≤ d.year.length
  · rw [YearFirst.full_eq_plain hlong]
    exact iff_of_true rfl (.inl hlong)
  · have hshort : d.year.length ≤ 2 := by omega
    obtain ⟨hyear, hyear', hne⟩ := YearFirst.hasYear_of_short hshort
    simp only [YearFirst.valid_full_iff hshort, hyear, hyear', and_true, hlong, false_or]
    by_cases hvalid : d.plain.Valid
    · rw [if_pos hvalid, if_pos hvalid, Option.some.injEq]
      refine iff_of_false (fun hsame => hne ?_) (not_not.mpr hvalid)
      have hvalid' := (YearFirst.valid_full_iff hshort).mpr hvalid
      have hplain := (toInt?_ofDateTime (t := ⟨d.plain, .midnight⟩)
        ⟨hvalid, WritesTime.midnight.valid⟩ hyear).2
      have hfull := (toInt?_ofDateTime (t := ⟨d.full, .midnight⟩)
        ⟨hvalid', WritesTime.midnight.valid⟩ hyear').2
      rw [hsame, hfull] at hplain
      exact congrArg (·.date.year) (Option.some.inj hplain)
    · rw [if_neg hvalid, if_neg hvalid]
      exact iff_of_true rfl hvalid

/-- **The number of the month and its name can give two dates**: the same day in the first century
and in the last one. -/
theorem read_yearFirst_differs :
    ∃ d : YearFirst, d.numeric = "94-11-15".toList ∧ d.named = "94 Nov 15".toList ∧
      read d.numeric = .ok (ofDateTime ⟨⟨94, 10, 15⟩, .midnight⟩) ∧
      read d.named = .ok (ofDateTime ⟨⟨1994, 10, 15⟩, .midnight⟩) ∧
      read d.numeric ≠ read d.named := by
  let d : YearFirst :=
    { year := "94".toList, month := 10, numeral := "11".toList, name := "Nov".toList
      day := "15".toList, isDigits_year := by decide +kernel, year_le_six := by decide +kernel
      isYear := by decide +kernel, month_lt := by decide, isNumeral := .inl (by decide +kernel)
      isMonthName := ⟨"Nov".toList, by decide +kernel, by decide +kernel⟩
      isDigits_day := by decide +kernel, day_le_two := by decide +kernel }
  exact ⟨d, by decide +kernel⟩

end Instant
end Interchange
