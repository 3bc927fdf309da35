/-
# Written dates are read back

Every layout writes the fields of an instant in a form that the scan takes apart again: it finds
each number in its role, for years of any width and either sign.  A text of the layout `stamp` gives
the whole millisecond back, the other layouts the start of its second.

* `tokens_gmt`, `tokens_sql`, `tokens_compact`: what the layouts look like to the scan;
* `readMillis_write`: the text of a date and time is read as what the layout kept of it;
* `read_text`: the text of an instant is read as the instant, down to the layout's grain.
-/
import Interchange.Proofs.DateText.Steps
import Interchange.Proofs.Instant.Fields

namespace Interchange

open Calendar Decimal

namespace DateText

/-! ## 1. Numbers of a written date -/

theorem count_padded {width n : Nat} (h : n ≤ countLimit) : count (padded width n) = n := by
  rw [count, value_padded]
  exact Nat.min_eq_left h

theorem length_padded_two {n : Nat} (h : n < 100) : (padded 2 n).length = 2 :=
  length_padded (by decide) h

/-- A year of the calendar is written with four to six digits. -/
theorem length_padded_year {year : Int} (h : HasYear year) :
    4 ≤ (padded 4 year.natAbs).length ∧ (padded 4 year.natAbs).length ≤ 6 := by
  have hsix : (digits year.natAbs).length ≤ 6 := by
    rw [length_digits_le_iff (by decide), show powerOfTen 6 = 1000000 from rfl]
    simp only [HasYear, firstYear, lastYear] at h
    omega
  simp only [padded, List.length_append, List.length_replicate]
  omega

/-- The number of a day, a month or the clock. -/
theorem ofDigits_padded {width n : Nat} (h : n ≤ countLimit) :
    Quantity.ofDigits false (padded width n) = ⟨n, (padded width n).length, false⟩ := by
  rw [Quantity.ofDigits, count_padded h]
  rfl

theorem ofDigits_padded_year {year : Int} (h : HasYear year) :
    Quantity.ofDigits (decide (year < 0)) (padded 4 year.natAbs) =
      ⟨year, (padded 4 year.natAbs).length, decide (year < 0)⟩ := by
  have hcount : year.natAbs ≤ countLimit := by
    simp only [HasYear, firstYear, lastYear] at h
    simp only [countLimit]
    omega
  rw [Quantity.ofDigits, count_padded hcount, Quantity.mk.injEq]
  refine ⟨?_, rfl, rfl⟩
  by_cases hneg : year < 0
  · rw [if_pos (by simpa using hneg)]
    omega
  · rw [if_neg (by simpa using hneg)]
    omega

/-! ## 2. Tokens of the layouts -/

def signTokens (year : Int) : List Token := if year < 0 then [.leadingMinus] else []

/-- A year and the digits after it are one number, with the sign before it. -/
theorem tokens_year_append (year : Int) {more rest : List Char}
    (hmore : ∀ c ∈ more, c.isDigit = true) (hrest : startsWithDigit rest = false) :
    tokens true (Instant.yearText year ++ (more ++ rest)) =
      signTokens year ++ .number (padded 4 year.natAbs ++ more) :: tokens false rest := by
  have hdigits : IsDigits (padded 4 year.natAbs ++ more) := (isDigits_padded _ _).append hmore
  unfold Instant.yearText signTokens
  split
  · rw [List.cons_append, ← List.append_assoc,
      tokens_leadingMinus (startsWithDigit_append hdigits rest), tokens_number hdigits hrest]
    rfl
  · rw [← List.append_assoc, tokens_number hdigits hrest]
    rfl

theorem tokens_year {year : Int} {rest : List Char} (hrest : startsWithDigit rest = false) :
    tokens true (Instant.yearText year ++ rest) =
      signTokens year ++ .number (padded 4 year.natAbs) :: tokens false rest := by
  have hnone : ∀ c ∈ ([] : List Char), c.isDigit = true := by simp
  have h := tokens_year_append year hnone hrest
  rwa [List.nil_append, List.append_nil] at h

theorem tokens_clock {opening : Bool} {t : Time} {rest : List Char}
    (hrest : startsWithDigit rest = false) :
    tokens opening (Instant.clockText [':'] t ++ rest) =
      .number (padded 2 t.hour) :: .symbol ':' :: .number (padded 2 t.minute) :: .symbol ':' ::
        .number (padded 2 t.second) :: tokens false rest := by
  have hcolon (rest : List Char) : tokens false (':' :: rest) = .symbol ':' :: tokens false rest :=
    tokens_symbol_inside (by decide)
  simp only [Instant.clockText, List.append_assoc, List.cons_append, List.nil_append]
  rw [tokens_number (isDigits_padded _ _) rfl, hcolon, tokens_number (isDigits_padded _ _) rfl,
    hcolon, tokens_number (isDigits_padded _ _) hrest]

/-- **A date with dashes and a clock with colons.** -/
theorem tokens_sql (t : DateTime) :
    tokens true (Instant.Layout.sql.write t) =
      signTokens t.date.year ++ .number (padded 4 t.date.year.natAbs) :: .symbol '-' ::
        .number (padded 2 (t.date.month + 1)) :: .symbol '-' :: .number (padded 2 t.date.day) ::
        .number (padded 2 t.time.hour) :: .symbol ':' :: .number (padded 2 t.time.minute) ::
        .symbol ':' :: .number (padded 2 t.time.second) :: [] := by
  have hdash (rest : List Char) : tokens false ('-' :: rest) = .symbol '-' :: tokens false rest :=
    tokens_symbol_inside (by decide)
  simp only [Instant.Layout.write, Instant.dateText, List.append_assoc, List.cons_append,
    List.nil_append]
  rw [tokens_year rfl, hdash, tokens_number (isDigits_padded _ _) rfl, hdash,
    tokens_number (isDigits_padded _ _) rfl, tokens_blank rfl,
    ← List.append_nil (Instant.clockText _ _), tokens_clock rfl, tokens_nil]

/-- **A date and a clock without separators are one number.** -/
theorem tokens_compact (t : DateTime) {fraction : List Char}
    (hfraction : ∀ c ∈ fraction, c.isDigit = true) :
    tokens true (Instant.dateText [] t.date ++ Instant.clockText [] t.time ++ fraction) =
      signTokens t.date.year ++ .number (padded 4 t.date.year.natAbs ++
        (padded 2 (t.date.month + 1) ++ (padded 2 t.date.day ++ (padded 2 t.time.hour ++
          (padded 2 t.time.minute ++ (padded 2 t.time.second ++ fraction)))))) :: [] := by
  have hmore : ∀ c ∈ padded 2 (t.date.month + 1) ++ (padded 2 t.date.day ++ (padded 2 t.time.hour ++
      (padded 2 t.time.minute ++ (padded 2 t.time.second ++ fraction)))), c.isDigit = true := by
    intro c hc
    simp only [List.mem_append] at hc
    rcases hc with h | h | h | h | h | h
    all_goals first | exact isDigit_of_mem_padded h | exact hfraction c h
  have hyear := tokens_year_append t.date.year hmore (show startsWithDigit [] = false from rfl)
  simp only [List.append_nil, tokens_nil] at hyear
  simp only [Instant.dateText, Instant.clockText, List.append_assoc, List.nil_append]
  exact hyear

/-- **A weekday, a date with a month name, a clock and the zone.** -/
theorem tokens_gmt {t : DateTime} {weekday month : List Char}
    (hweekday : weekdayNames[t.date.weekday]? = some weekday)
    (hmonth : monthNames[t.date.month]? = some month) (hw : IsLetters weekday)
    (hm : IsLetters month) :
    tokens true (Instant.Layout.gmt.write t) =
      .word weekday :: .symbol ',' :: .number (padded 2 t.date.day) :: .word month ::
        (signTokens t.date.year ++ .number (padded 4 t.date.year.natAbs) ::
        .number (padded 2 t.time.hour) :: .symbol ':' :: .number (padded 2 t.time.minute) ::
        .symbol ':' :: .number (padded 2 t.time.second) :: .word "GMT".toList :: []) := by
  have hzone : tokens false " GMT".toList = [.word "GMT".toList] := by decide +kernel
  simp only [Instant.Layout.write, hweekday, hmonth, Option.getD_some, List.append_assoc,
    List.cons_append, List.nil_append]
  rw [tokens_word hw rfl, tokens_symbol_inside (by decide), tokens_blank rfl,
    tokens_number (isDigits_padded _ _) rfl, tokens_blank rfl, tokens_word hm rfl, tokens_blank rfl,
    tokens_year rfl, tokens_blank rfl, tokens_clock rfl, hzone]

/-! ## 3. What the scan collects -/

theorem run_sign {lenient : Bool} {s : Scan} {year : Int} {rest : List Token}
    (hclock : s.clock = none) (hminus : s.minusPending = false) :
    Scan.run lenient s (signTokens year ++ rest) =
      Scan.run lenient { s with minusPending := decide (year < 0) } rest := by
  unfold signTokens
  split
  · next h => rw [List.singleton_append, Scan.run_leadingMinus hclock, decide_eq_true h]
  · next h => rw [List.nil_append, decide_eq_false h, ← hminus]

/-- A number of four to six digits is too narrow for a whole date, and too wide for a day. -/
theorem padded_year_spec {year : Int} (h : HasYear year) :
    Scan.compactYearWidth (padded 4 year.natAbs).length = none ∧
      (Quantity.mk year (padded 4 year.natAbs).length (decide (year < 0))).isYear = true ∧
      (Quantity.mk year (padded 4 year.natAbs).length (decide (year < 0))).fullYear = year := by
  have hlength := length_padded_year h
  generalize (padded 4 year.natAbs).length = width at hlength
  refine ⟨?_, ?_, ?_⟩
  · rw [Scan.compactYearWidth, if_neg (by omega), if_neg (by omega), if_neg (by omega)]
  · simp only [Quantity.isYear, Bool.or_eq_true, decide_eq_true_eq]
    omega
  · rw [Quantity.fullYear, if_neg (by simp only [not_and]; omega)]

theorem count_clock {t : Time} (h : t.Valid) :
    count (padded 2 t.hour) = t.hour ∧ count (padded 2 t.minute) = t.minute ∧
      count (padded 2 t.second) = t.second := by
  obtain ⟨hh, hm, hs, -⟩ := h
  refine ⟨?_, ?_, ?_⟩ <;> exact count_padded (by simp only [countLimit]; omega)

/-- A month or a day of a real date has two digits: too few for a whole date, and read as it is. -/
theorem padded_two_spec {n : Nat} (h : n < 100) :
    Scan.compactYearWidth (padded 2 n).length = none ∧
      Quantity.ofDigits false (padded 2 n) = ⟨n, 2, false⟩ := by
  have hlength := length_padded_two h
  refine ⟨by rw [hlength]; rfl, ?_⟩
  rw [ofDigits_padded (by simp only [countLimit]; omega), hlength]

theorem day_lt {d : Date} (h : d.Valid) : d.day < 100 := by
  have := h.2.2
  have := monthLength_le d.year d.month
  omega

/-! ## 4. The scan of the layouts -/

/-- **The tokens of `sql` are read as the date and its clock.** -/
theorem run_sql (lenient : Bool) {t : DateTime} (ht : t.Valid) (hyear : HasYear t.date.year) :
    ∃ s, Scan.run lenient .initial (tokens true (Instant.Layout.sql.write t)) = .ok s ∧
      s.Names ⟨t.date, { t.time with millisecond := 0 }⟩ := by
  obtain ⟨hw, hisYear, -⟩ := padded_year_spec hyear
  obtain ⟨hmw, hmonth⟩ := padded_two_spec (n := t.date.month + 1) (by have := ht.1.1; omega)
  obtain ⟨hdw, hday⟩ := padded_two_spec (day_lt ht.1)
  obtain ⟨hh, hm, hs⟩ := count_clock ht.2
  have hfields := ofDigits_padded_year hyear
  refine ⟨?_, ?_, ?_⟩
  rotate_left
  · rw [tokens_sql, run_sign rfl rfl, Scan.run_number (by simp) (.inl hw) (by simp [Scan.initial]),
      Scan.run_dash rfl, Scan.run_number (by simp) (.inl hmw) (by simp [Scan.push, Scan.initial]),
      Scan.run_dash rfl, Scan.run_number (by simp) (.inl hdw) (by simp [Scan.push, Scan.initial]),
      Scan.run_clock rfl rfl (by simp), Scan.run_nil]
  · refine ⟨?_, ?_, rfl, rfl⟩
    · simp only [Scan.calendarDay, Scan.push, Scan.initial, List.nil_append, List.cons_append,
        hfields, hmonth, hday, hisYear, if_true]
      rfl
    · simp only [Scan.clockOrMidnight, Option.getD_some, hh, hm, hs]

/-- **The tokens of `gmt` are read as the date and its clock.** -/
theorem run_gmt (lenient : Bool) {t : DateTime} (ht : t.Valid) (hyear : HasYear t.date.year) :
    ∃ s, Scan.run lenient .initial (tokens true (Instant.Layout.gmt.write t)) = .ok s ∧
      s.Names ⟨t.date, { t.time with millisecond := 0 }⟩ := by
  obtain ⟨hw, -, hfull⟩ := padded_year_spec hyear
  obtain ⟨hdw, hday⟩ := padded_two_spec (day_lt ht.1)
  obtain ⟨hh, hm, hs⟩ := count_clock ht.2
  have hfields := ofDigits_padded_year hyear
  have hweekday : t.date.weekday < 7 := by
    unfold Date.weekday
    omega
  obtain ⟨weekday, hwn⟩ : ∃ word, weekdayNames[t.date.weekday]? = some word :=
    ⟨_, List.getElem?_eq_getElem hweekday⟩
  obtain ⟨month, hmn⟩ : ∃ word, monthNames[t.date.month]? = some word :=
    ⟨_, List.getElem?_eq_getElem ht.1.1⟩
  have hwm := List.mem_of_getElem? hwn
  have hwl := (Scan.readWord_weekday .initial hwm).1
  have hml := (Scan.readWord_month .initial ht.1.1 hmn).1
  have hnotYear : (Quantity.mk t.date.day 2 false).isYear = false := by
    have := ht.1.2.2
    have := monthLength_le t.date.year t.date.month
    simp only [Quantity.isYear, Bool.or_eq_false_iff, decide_eq_false_iff_not, true_and]
    omega
  refine ⟨?_, ?_, ?_⟩
  rotate_left
  · rw [tokens_gmt hwn hmn hwl hml, Scan.run_word (Scan.readWord_weekday _ hwm).2,
      Scan.run_comma, Scan.run_number (by simp) (.inl hdw) (by simp [Scan.initial]),
      Scan.run_word (Scan.readWord_month _ ht.1.1 hmn).2, run_sign rfl rfl,
      Scan.run_number (by simp) (.inl hw) (by simp [Scan.push, Scan.initial]),
      Scan.run_clock rfl rfl (by simp), Scan.run_word rfl, Scan.run_nil]
  · refine ⟨?_, ?_, rfl, rfl⟩
    · simp only [Scan.calendarDay, Scan.push, Scan.initial, List.nil_append, List.cons_append,
        hfields, hday, hnotYear, hfull, Bool.false_eq_true, if_false]
      rfl
    · simp only [Scan.clockOrMidnight, Option.getD_some, hh, hm, hs]

/-- **The one number of a date without separators is taken apart by its width alone.**  The years of
the calendar have four to six digits, and with these no two widths mean the same. -/
theorem run_compact_text (lenient : Bool) {t : DateTime} (fraction : List Char) (ht : t.Valid)
    (hyear : HasYear t.date.year) (hfraction : ∀ c ∈ fraction, c.isDigit = true)
    (hwidth : fraction.length = 0 ∨ fraction.length = 3) :
    ∃ s, Scan.run lenient .initial (tokens true
        (Instant.dateText [] t.date ++ Instant.clockText [] t.time ++ fraction)) = .ok s ∧
      s.Names ⟨t.date, { t.time with millisecond := value fraction }⟩ := by
  obtain ⟨-, hisYear, -⟩ := padded_year_spec hyear
  have hlength := length_padded_year hyear
  have hfields := ofDigits_padded_year hyear
  obtain ⟨-, hmonth⟩ := padded_two_spec (n := t.date.month + 1) (by have := ht.1.1; omega)
  obtain ⟨-, hday⟩ := padded_two_spec (day_lt ht.1)
  have hml := length_padded_two (n := t.date.month + 1) (by have := ht.1.1; omega)
  have hdl := length_padded_two (day_lt ht.1)
  have hhl := length_padded_two (n := t.time.hour) (by have := ht.2.1; omega)
  have hnl := length_padded_two (n := t.time.minute) (by have := ht.2.2.1; omega)
  have hsl := length_padded_two (n := t.time.second) (by have := ht.2.2.2.1; omega)
  rw [tokens_compact t hfraction]
  generalize hy : padded 4 t.date.year.natAbs = year at *
  generalize hm : padded 2 (t.date.month + 1) = month at *
  generalize hd : padded 2 t.date.day = day at *
  generalize hh : padded 2 t.time.hour = hour at *
  generalize hn : padded 2 t.time.minute = minute at *
  generalize hs : padded 2 t.time.second = second at *
  have hyw : Scan.compactYearWidth
      (year ++ (month ++ (day ++ (hour ++ (minute ++ (second ++ fraction)))))).length =
        some year.length := by
    simp only [List.length_append, Scan.compactYearWidth]
    rcases hwidth with h | h
    · rw [if_neg (by omega), if_pos (by omega)]
      congr 1
      omega
    · rw [if_neg (by omega), if_neg (by omega), if_pos (by omega)]
      congr 1
      omega
  refine ⟨?_, ?_, ?_⟩
  rotate_left
  · rw [run_sign rfl rfl, Scan.run_compact (by simp) hyw rfl,
      Scan.readCompact_append hml hdl hhl hnl hsl (by omega), Scan.run_nil]
  · refine ⟨?_, ?_, rfl, rfl⟩
    · simp only [Scan.calendarDay, Scan.initial, hfields, hmonth, hday, hisYear, if_true]
      rfl
    · simp only [Scan.clockOrMidnight, Option.getD_some, ← hh, ← hn, ← hs, value_padded]

end DateText

/-! ## 5. Written dates -/

/-- The milliseconds that a layout does not tell apart: only `stamp` writes them. -/
def Instant.Layout.grain : Instant.Layout → Nat
  | .stamp => 1
  | .gmt | .x509 | .sql => 1000

/-- What a layout keeps of a date and time, which is what its text can be read back as. -/
def Instant.Layout.kept : Instant.Layout → DateTime → DateTime
  | .stamp, t => t
  | .gmt, t | .x509, t | .sql, t => ⟨t.date, { t.time with millisecond := 0 }⟩

theorem Instant.Layout.valid_kept (layout : Instant.Layout) {t : DateTime} (ht : t.Valid) :
    (layout.kept t).Valid ∧ (layout.kept t).date = t.date := by
  obtain ⟨hd, hh, hm, hs, hms⟩ := ht
  have hzero : 0 < 1000 := by decide
  cases layout with
  | stamp => exact ⟨⟨hd, hh, hm, hs, hms⟩, rfl⟩
  | gmt | x509 | sql => exact ⟨⟨hd, hh, hm, hs, hzero⟩, rfl⟩

/-- A layout keeps the start of the stretch of time that it does not tell apart. -/
theorem Instant.Layout.toMillis_kept (layout : Instant.Layout) {t : DateTime} (ht : t.Valid) :
    (layout.kept t).toMillis = t.toMillis - t.toMillis % layout.grain := by
  have hms := ht.2.2.2.2
  have hall : ∀ n : Int, n = n - n % (1 : Nat) := by omega
  cases layout with
  | stamp => exact hall _
  | gmt | x509 | sql =>
    simp only [kept, grain, DateTime.toMillis, Time.toMillis, millisPerDay, millisPerHour,
      millisPerMinute, millisPerSecond]
    omega

namespace DateText

/-- **Every layout is scanned as what it kept**, in either kind of scan: a written date has no
unknown word. -/
theorem run_write (lenient : Bool) (layout : Instant.Layout) {t : DateTime} (ht : t.Valid)
    (hyear : HasYear t.date.year) :
    ∃ s, Scan.run lenient .initial (tokens true (layout.write t)) = .ok s ∧
      s.Names (layout.kept t) := by
  have hms : t.time.millisecond < powerOfTen 3 := ht.2.2.2.2
  cases layout with
  | gmt => exact run_gmt lenient ht hyear
  | sql => exact run_sql lenient ht hyear
  | x509 =>
    obtain ⟨s, hs, hnames⟩ := run_compact_text lenient [] ht hyear (by simp) (.inl rfl)
    rw [List.append_nil] at hs
    exact ⟨s, hs, hnames⟩
  | stamp =>
    obtain ⟨s, hs, hnames⟩ := run_compact_text lenient (padded 3 t.time.millisecond) ht hyear
      (fun c hc => isDigit_of_mem_padded hc) (.inr (length_padded (by decide) hms))
    rw [value_padded] at hnames
    exact ⟨s, hs, hnames⟩

theorem write_not_blank (layout : Instant.Layout) (t : DateTime) :
    (layout.write t).all isBlank = false := by
  obtain ⟨c, hc⟩ := List.exists_mem_of_ne_nil _ (isDigits_padded 2 t.time.second).1
  have hmem : c ∈ layout.write t := by
    cases layout <;> simp [Instant.Layout.write, Instant.clockText, hc]
  rw [List.all_eq_false]
  exact ⟨c, hmem, by simp [not_isBlank_of_isDigit (isDigit_of_mem_padded hc)]⟩

/-- **A date and time in a year of the calendar is read back from every layout**, down to the
layout's grain. -/
theorem readMillis_write (lenient : Bool) (layout : Instant.Layout) {t : DateTime} (ht : t.Valid)
    (hyear : HasYear t.date.year) :
    readMillis lenient (layout.write t) = .ok (t.toMillis - t.toMillis % layout.grain) := by
  obtain ⟨s, hs, hnames⟩ := run_write lenient layout ht hyear
  obtain ⟨hvalid, hdate⟩ := layout.valid_kept ht
  rw [readMillis, write_not_blank, hs, ← layout.toMillis_kept ht]
  exact hnames.millis hvalid (by rw [hdate]; exact hyear)

end DateText

namespace Instant

/-- **An instant within the calendar's stretch is read back from its text in every layout.**  The
layout `stamp` gives exactly the whole millisecond, the other layouts exactly the start of its
second. -/
theorem read_text {x : Instant} {ms : Int} (hx : x.millis.floor? = some ms)
    (hrange : firstMillis ≤ ms ∧ ms ≤ lastMillis) (layout : Layout) :
    read (x.text layout) = .ok ⟨Double.ofInt (ms - ms % layout.grain)⟩ ∧
      (Double.ofInt (ms - ms % layout.grain)).toInt? = some (ms - ms % layout.grain) := by
  have ht := (dateTime?_eq_some_iff hx).mpr ⟨hrange, rfl⟩
  have hread := DateText.readMillis_write false layout (DateTime.valid_ofMillis ms)
    ((hasYear_ofMillis_iff ms).mpr hrange)
  rw [DateTime.toMillis_ofMillis] at hread
  have hexact : (Double.ofInt (ms - ms % layout.grain)).toInt? = some (ms - ms % layout.grain) := by
    refine Double.toInt?_ofInt (fits_millis ?_)
    rw [firstMillis_eq, lastMillis_eq] at *
    cases layout <;> simp only [Layout.grain] <;> omega
  refine ⟨?_, hexact⟩
  simp only [read, text, ht, hread, Except.map, ofMillis, Double.isFinite_of_toInt? hexact, if_true]

/-- An afternoon in a year with six digits before year 0. -/
theorem read_text_negative_year :
    let x : Instant := ⟨Double.ofInt (-5000000000000001)⟩
    x.millis.floor? = some (-5000000000000001) ∧
      x.text .x509 = "-1564740423150639".toList ∧ read (x.text .stamp) = .ok x ∧
      read (x.text .gmt) = .ok ⟨Double.ofInt (-5000000000001000)⟩ := by
  intro x
  have hx : x.millis.floor? = some (-5000000000000001) := by decide +kernel
  have hrange : firstMillis ≤ -5000000000000001 ∧ -5000000000000001 ≤ lastMillis := by
    decide +kernel
  have hstamp := (read_text hx hrange .stamp).1
  have hgmt := (read_text hx hrange .gmt).1
  rw [show (-5000000000000001 : Int) - -5000000000000001 % (Layout.stamp.grain : Int) =
    -5000000000000001 by decide +kernel] at hstamp
  rw [show (-5000000000000001 : Int) - -5000000000000001 % (Layout.gmt.grain : Int) =
    -5000000000001000 by decide +kernel] at hgmt
  exact ⟨hx, by decide +kernel, hstamp, hgmt⟩

end Instant
end Interchange
