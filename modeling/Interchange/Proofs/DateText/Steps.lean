/-
# Steps of the scan

What the scan does with the next tokens, one lemma for each role that a token can have.  Each lemma
states the role by its conditions (what was found before, what comes next) and gives the state that
the scan goes on with.

* `run_number`, `run_compact`, `run_hour`: the three roles of a number;
* `readClock_minute`, `readClock_second`, `readClock_fraction`: where a clock ends;
* `run_leadingMinus`, `run_dash`, `run_word`: signs, separators and words;
* `readWord_lookup`: which words are looked up as names, and what for;
* `readWord_cases`: what a word can do to a scan;
* `readWord_weekday`, `readWord_month`: what the names of days and months are taken for;
* `Shows.millis_eq`, `Shows.millis_utc`, `Names.millis`: what the collected parts of a real date
  denote.
-/
import Mathlib.Data.List.Basic
import Interchange.DateText.Read
import Interchange.Proofs.Calendar.Succession
import Interchange.Proofs.DateText.Tokens

namespace Interchange
namespace DateText

open Calendar

theorem count_eq_value {digits : List Char} (h : IsDigits digits) (hshort : digits.length ≤ 7) :
    count digits = Decimal.value digits := by
  have hlt : Decimal.value digits < 10000000 := by
    calc Decimal.value digits < Decimal.powerOfTen digits.length := value_lt h.2
      _ ≤ Decimal.powerOfTen 7 := Nat.pow_le_pow_right (by decide) hshort
  exact Nat.min_eq_left (by simp only [countLimit]; omega)

namespace Scan

/-! ## 1. One step of a run -/

@[simp] theorem run_nil (lenient : Bool) (s : Scan) : run lenient s [] = .ok s := by rw [run]

theorem run_cons_of_ok {lenient : Bool} {s s' : Scan} {token : Token} {rest rest' : List Token}
    (h : step lenient s token rest = .ok (s', rest')) :
    run lenient s (token :: rest) = run lenient s' rest' := by
  rw [run]
  split
  · next e he =>
    rw [h] at he
    exact absurd he (by simp)
  · next s'' rest'' he =>
    rw [h, Except.ok.injEq, Prod.mk.injEq] at he
    rw [he.1, he.2]

theorem run_cons_of_error {lenient : Bool} {s : Scan} {token : Token} {rest : List Token}
    {e : Error} (h : step lenient s token rest = .error e) :
    run lenient s (token :: rest) = .error e := by
  rw [run]
  split
  · next e' he =>
    rw [h] at he
    rw [Except.error.inj he]
  · next s' rest' he =>
    rw [h] at he
    exact absurd he (by simp)

/-! ## 2. Numbers -/

def push (s : Scan) (digits : List Char) : Scan :=
  { s with
    minusPending := false
    numbers := s.numbers ++ [.ofDigits s.minusPending digits] }

/-- **A number that is no hour and no whole date is kept for the calendar**, with the sign before
it.  Behind other parts no number is a whole date, however wide it is. -/
theorem run_number {lenient : Bool} {s : Scan} {digits : List Char} {rest : List Token}
    (hcolon : rest.head? ≠ some (.symbol ':'))
    (hwidth : compactYearWidth digits.length = none ∨ s.isBlank = false)
    (hroom : s.numbers.length < 3) :
    run lenient s (.number digits :: rest) = run lenient (s.push digits) rest := by
  refine run_cons_of_ok ?_
  have hpush : ({ s with minusPending := false } : Scan).pushNumber digits s.minusPending =
      .ok (s.push digits) := if_pos hroom
  simp only [step, readNumber]
  split
  · next after => exact absurd rfl hcolon
  · rcases hwidth with hwidth | hblank
    · rw [hwidth]
      simp only [hpush]
      rfl
    · have hblank' : ({ s with minusPending := false } : Scan).isBlank = false := hblank
      simp only [hpush, hblank', Bool.false_eq_true, if_false]
      split <;> rfl

/-- **A number as wide as a whole date is one**, where nothing was found before.  Behind a month or
a clock the same number is one of the calendar. -/
theorem run_compact {lenient : Bool} {s : Scan} {digits : List Char} {rest : List Token}
    {yearWidth : Nat} (hcolon : rest.head? ≠ some (.symbol ':'))
    (hwidth : compactYearWidth digits.length = some yearWidth) (hblank : s.isBlank = true) :
    run lenient s (.number digits :: rest) =
      run lenient ({ s with minusPending := false }.readCompact digits yearWidth s.minusPending)
        rest := by
  refine run_cons_of_ok ?_
  have hblank' : Scan.isBlank { s with minusPending := false } = true := hblank
  simp only [step, readNumber]
  split
  · next after => exact absurd rfl hcolon
  · rw [hwidth]
    simp only [hblank', if_true]

/-- A run of digits that is a whole date has the year in front, and two digits for each number after
it. -/
theorem readCompact_append {s : Scan} {negative : Bool}
    {year month day hour minute second fraction : List Char} (hmonth : month.length = 2)
    (hday : day.length = 2) (hhour : hour.length = 2) (hminute : minute.length = 2)
    (hsecond : second.length = 2) (hfraction : fraction.length ≤ 3) :
    s.readCompact (year ++ (month ++ (day ++ (hour ++ (minute ++ (second ++ fraction))))))
        year.length negative =
      { s with
        numbers := [.ofDigits negative year, .ofDigits false month, .ofDigits false day]
        clock := some ⟨Decimal.value hour, Decimal.value minute, Decimal.value second,
          Decimal.value fraction⟩ } := by
  have hdrop (rest : List Char) (k : Nat) : (year ++ rest).drop (year.length + k) = rest.drop k :=
    List.drop_length_add_append k
  obtain ⟨m₁, m₂, rfl⟩ := List.length_eq_two.mp hmonth
  obtain ⟨d₁, d₂, rfl⟩ := List.length_eq_two.mp hday
  obtain ⟨h₁, h₂, rfl⟩ := List.length_eq_two.mp hhour
  obtain ⟨n₁, n₂, rfl⟩ := List.length_eq_two.mp hminute
  obtain ⟨s₁, s₂, rfl⟩ := List.length_eq_two.mp hsecond
  unfold readCompact slice
  rw [if_pos (by simp only [List.length_append, List.length_cons]; omega)]
  simp only [hdrop, List.take_left, List.drop_left, List.cons_append, List.nil_append,
    List.drop_succ_cons, List.drop_zero, List.take_succ_cons, List.take_zero,
    List.take_of_length_le hfraction]

/-- **A number before a colon is the hour of a clock**, however wide it is: this is asked before its
width is. -/
theorem run_hour {lenient : Bool} {s s' : Scan} {hour : List Char} {rest rest' : List Token}
    (hminus : s.minusPending = false) (h : s.readClock hour rest = .ok (s', rest')) :
    run lenient s (.number hour :: .symbol ':' :: rest) = run lenient s' rest' := by
  refine run_cons_of_ok ?_
  have hs : { s with minusPending := false } = s := by rw [← hminus]
  simp only [step, readNumber, hminus, hs, Bool.false_eq_true, if_false, h]

/-- A clock needs its minute. -/
theorem readClock_of_ne {s : Scan} {hour : List Char} {rest : List Token} (hclock : s.clock = none)
    (h : ∀ minute rest', rest ≠ .number minute :: rest') :
    s.readClock hour rest = .error (.missingField .minute) := by
  simp only [readClock, hclock, Option.isSome_none, Bool.false_eq_true, if_false]
  split
  · exact absurd rfl (h _ _)
  · exact absurd rfl (h _ _)
  · exact absurd rfl (h _ _)
  · rfl

/-- A clock ends with its minute, unless a colon and a number follow. -/
theorem readClock_minute_of_ne {s : Scan} {hour minute : List Char} {rest : List Token}
    (hclock : s.clock = none) (h : ∀ second rest', rest ≠ .symbol ':' :: .number second :: rest') :
    s.readClock hour (.number minute :: rest) =
      .ok ({ s with clock := some ⟨count hour, count minute, 0, 0⟩ }, rest) := by
  simp only [readClock, hclock, Option.isSome_none, Bool.false_eq_true, if_false]
  split
  · next heq => exact absurd (List.cons.inj heq).2 (h _ _)
  · next heq => exact absurd (List.cons.inj heq).2 (h _ _)
  · next heq =>
    obtain ⟨hminute, rfl⟩ := List.cons.inj heq
    cases hminute
    rfl
  · next hnone => exact absurd rfl (hnone _ _)

theorem readClock_minute {s : Scan} {hour minute : List Char} {rest : List Token}
    (hclock : s.clock = none) (hcolon : rest.head? ≠ some (.symbol ':')) :
    s.readClock hour (.number minute :: rest) =
      .ok ({ s with clock := some ⟨count hour, count minute, 0, 0⟩ }, rest) := by
  refine readClock_minute_of_ne hclock ?_
  rintro second rest' rfl
  exact hcolon rfl

/-- A clock ends with its second, unless a point and a number follow. -/
theorem readClock_second_of_ne {s : Scan} {hour minute second : List Char} {rest : List Token}
    (hclock : s.clock = none)
    (h : ∀ fraction rest', rest ≠ .symbol '.' :: .number fraction :: rest') :
    s.readClock hour (.number minute :: .symbol ':' :: .number second :: rest) =
      .ok ({ s with clock := some ⟨count hour, count minute, count second, 0⟩ }, rest) := by
  have hpoint : ∀ fraction rest', rest = .symbol '.' :: .number fraction :: rest' → False := h
  simp only [readClock, hclock, Option.isSome_none, Bool.false_eq_true, if_false]

theorem readClock_second {s : Scan} {hour minute second : List Char} {rest : List Token}
    (hclock : s.clock = none) (hpoint : rest.head? ≠ some (.symbol '.')) :
    s.readClock hour (.number minute :: .symbol ':' :: .number second :: rest) =
      .ok ({ s with clock := some ⟨count hour, count minute, count second, 0⟩ }, rest) := by
  refine readClock_second_of_ne hclock ?_
  rintro fraction rest' rfl
  exact hpoint rfl

theorem readClock_fraction {s : Scan} {hour minute second fraction : List Char}
    {rest : List Token} (hclock : s.clock = none) :
    s.readClock hour (.number minute :: .symbol ':' :: .number second :: .symbol '.' ::
        .number fraction :: rest) =
      .ok ({ s with clock := some ⟨count hour, count minute, count second,
        fractionMillis fraction⟩ }, rest) := by
  simp only [readClock, hclock, Option.isSome_none, Bool.false_eq_true, if_false]

/-- **Hour, minute and second** between colons, without a fraction. -/
theorem run_clock {lenient : Bool} {s : Scan} {hour minute second : List Char} {rest : List Token}
    (hclock : s.clock = none) (hminus : s.minusPending = false)
    (hpoint : rest.head? ≠ some (.symbol '.')) :
    run lenient s (.number hour :: .symbol ':' :: .number minute :: .symbol ':' ::
        .number second :: rest) =
      run lenient { s with clock := some ⟨count hour, count minute, count second, 0⟩ } rest :=
  run_hour hminus (readClock_second hclock hpoint)

/-! ## 3. Signs, separators and words -/

/-- A minus sign before the clock waits for its number. -/
theorem run_leadingMinus {lenient : Bool} {s : Scan} {rest : List Token} (hclock : s.clock = none) :
    run lenient s (.leadingMinus :: rest) = run lenient { s with minusPending := true } rest := by
  refine run_cons_of_ok ?_
  simp [step, hclock]

theorem run_dash {lenient : Bool} {s : Scan} {rest : List Token} (hclock : s.clock = none) :
    run lenient s (.symbol '-' :: rest) = run lenient s rest := by
  refine run_cons_of_ok ?_
  simp [step, hclock]

theorem run_comma {lenient : Bool} {s : Scan} {rest : List Token} :
    run lenient s (.symbol ',' :: rest) = run lenient s rest := run_cons_of_ok rfl

theorem run_slash {lenient : Bool} {s : Scan} {rest : List Token} :
    run lenient s (.symbol '/' :: rest) = run lenient s rest := run_cons_of_ok rfl

theorem run_word {lenient : Bool} {s s' : Scan} {letters : List Char} {rest : List Token}
    (h : s.readWord letters = .ok s') :
    run lenient s (.word letters :: rest) = run lenient s' rest := by
  refine run_cons_of_ok ?_
  simp only [step, h]

/-! ## 4. Names of days and months -/

theorem ofList_ne {text : List Char} {s : String} (h : text ≠ s.toList) :
    String.ofList text ≠ s := by
  rintro rfl
  exact h String.toList_ofList.symm

theorem nameIndex_congr {names : List (List Char)} {word word' : List Char}
    (h : word.map Char.toLower = word'.map Char.toLower) :
    nameIndex names word = nameIndex names word' := by
  have hlength : word.length = word'.length := by simpa using congrArg List.length h
  unfold nameIndex
  rw [hlength, List.map_take, List.map_take, h]

/-- The separator, the zones and the halves of the day, in small letters. -/
def specialWords : List String := ["t", "z", "gmt", "utc", "ut", "am", "pm"]

/-- A word that is no separator, no zone and no half of the day is looked up as a name. -/
theorem readWord_lookup {s : Scan} {word : List Char}
    (hword : ∀ special ∈ specialWords, word.map Char.toLower ≠ special.toList) :
    s.readWord word =
      match nameIndex monthNames word with
      | some index => .ok { s with month := some (index + 1) }
      | none =>
        if (nameIndex weekdayNames word).isSome then .ok s else .error (.unexpectedToken word) := by
  have hne : ∀ special ∈ specialWords, String.ofList (word.map Char.toLower) ≠ special :=
    fun special h => ofList_ne (hword special h)
  simp only [specialWords, List.forall_mem_cons] at hne
  cases hmonth : nameIndex monthNames word with
  | none | some index => simp only [readWord, hne, or_self, if_false, hmonth]

/-- Names of months and days are found by the look-up. -/
theorem readWord_name {s : Scan} {word : List Char}
    (hword : ∀ special ∈ specialWords, word.map Char.toLower ≠ special.toList) :
    (∀ index, nameIndex monthNames word = some index →
      s.readWord word = .ok { s with month := some (index + 1) }) ∧
    (nameIndex monthNames word = none →
      (nameIndex weekdayNames word).isSome = true → s.readWord word = .ok s) := by
  refine ⟨fun index hmonth => ?_, fun hmonth hweekday => ?_⟩
  · rw [readWord_lookup hword, hmonth]
  · rw [readWord_lookup hword, hmonth]
    exact if_pos hweekday

/-- A word that every scan rejects, whatever it has collected.  `read_word` looks at nothing but the
word before it rejects, so each word is unknown or rejected by no scan. -/
def IsUnknown (word : List Char) : Prop :=
  ∀ s : Scan, s.readWord word = .error (.unexpectedToken word)

/-- **What a word does to a scan depends on the word alone**: it is passed over, sets the zone where
there is none, names a half of the day or a month, or is unknown. -/
theorem readWord_cases (word : List Char) :
    (∀ s : Scan, s.readWord word = .ok s) ∨
      (∀ s : Scan, s.readWord word =
        .ok { s with offsetMinutes := some (s.offsetMinutes.getD 0) }) ∨
      (∃ half, ∀ s : Scan, s.readWord word = .ok { s with meridiem := some half }) ∨
      (∃ index, nameIndex monthNames word = some index ∧
        ∀ s : Scan, s.readWord word = .ok { s with month := some (index + 1) }) ∨
      IsUnknown word := by
  by_cases hseparator : String.ofList (word.map Char.toLower) = "t"
  · exact .inl fun s => if_pos hseparator
  by_cases hzone : String.ofList (word.map Char.toLower) = "z" ∨
      String.ofList (word.map Char.toLower) = "gmt" ∨
      String.ofList (word.map Char.toLower) = "utc" ∨
      String.ofList (word.map Char.toLower) = "ut"
  · refine .inr (.inl fun s => ?_)
    rw [readWord, if_neg hseparator, if_pos hzone]
  by_cases ham : String.ofList (word.map Char.toLower) = "am"
  · refine .inr (.inr (.inl ⟨.am, fun s => ?_⟩))
    rw [readWord, if_neg hseparator, if_neg hzone, if_pos ham]
  by_cases hpm : String.ofList (word.map Char.toLower) = "pm"
  · refine .inr (.inr (.inl ⟨.pm, fun s => ?_⟩))
    rw [readWord, if_neg hseparator, if_neg hzone, if_neg ham, if_pos hpm]
  cases hmonth : nameIndex monthNames word with
  | some index =>
    refine .inr (.inr (.inr (.inl ⟨index, rfl, fun s => ?_⟩)))
    rw [readWord, if_neg hseparator, if_neg hzone, if_neg ham, if_neg hpm, hmonth]
  | none =>
    by_cases hweekday : (nameIndex weekdayNames word).isSome = true
    · refine .inl fun s => ?_
      rw [readWord, if_neg hseparator, if_neg hzone, if_neg ham, if_neg hpm, hmonth]
      exact if_pos hweekday
    · refine .inr (.inr (.inr (.inr fun s => ?_)))
      rw [readWord, if_neg hseparator, if_neg hzone, if_neg ham, if_neg hpm, hmonth]
      exact if_neg hweekday

/-- The names of days are words, and the scan passes over them. -/
theorem readWord_weekday (s : Scan) {word : List Char} (hword : word ∈ weekdayNames) :
    IsLetters word ∧ s.readWord word = .ok s := by
  have hletters : weekdayNames.all (fun word => !word.isEmpty && word.all Char.isAlpha) = true := by
    decide +kernel
  have hspecial : ∀ word ∈ weekdayNames, ∀ special ∈ specialWords,
      word.map Char.toLower ≠ special.toList := by decide +kernel
  have hnoMonth : ∀ word ∈ weekdayNames, nameIndex monthNames word = none := by decide +kernel
  have hweekday : ∀ word ∈ weekdayNames, (nameIndex weekdayNames word).isSome = true := by
    decide +kernel
  refine ⟨isLetters_of_all (List.all_eq_true.mp hletters word hword), ?_⟩
  exact (readWord_name (hspecial word hword)).2 (hnoMonth word hword) (hweekday word hword)

/-- The names of months are words, and the scan keeps their place in the year. -/
theorem readWord_month (s : Scan) {i : Nat} {word : List Char} (hi : i < 12)
    (hword : monthNames[i]? = some word) :
    IsLetters word ∧ s.readWord word = .ok { s with month := some (i + 1) } := by
  have hmem := List.mem_of_getElem? hword
  have hletters : monthNames.all (fun word => !word.isEmpty && word.all Char.isAlpha) = true := by
    decide +kernel
  have hspecial : ∀ word ∈ monthNames, ∀ special ∈ specialWords,
      word.map Char.toLower ≠ special.toList := by decide +kernel
  have hindex : ∀ i < 12, ∀ word ∈ monthNames[i]?, nameIndex monthNames word = some i := by
    decide +kernel
  refine ⟨isLetters_of_all (List.all_eq_true.mp hletters word hmem), ?_⟩
  exact (readWord_name (hspecial word hmem)).1 i (hindex i hi word hword)

/-! ## 5. What the parts denote -/

theorem check_of_mem {field : Field} {value low high : Int} (h : low ≤ value ∧ value ≤ high) :
    check field value low high = .ok () := if_pos h

/-- What a scan has collected is a date and time of day, its zone offset aside.  The hour that is
written is one of half a day if the half is named.  This is what `millis` finds before it asks the
calendar. -/
structure Shows (s : Scan) (t : DateTime) : Prop where
  day : s.calendarDay = .ok ⟨t.date.year, t.date.month + 1, t.date.day⟩
  clock : ∃ hour, s.clockOrMidnight =
      ⟨hour, t.time.minute, t.time.second, t.time.millisecond⟩ ∧
    hour24 s.meridiem hour = .ok t.time.hour

/-- **The parts of a real date in a year of the calendar denote its milliseconds**, moved by the
zone offset: no check fails, and the date is the one that they name.  `exists_of_millis` is the
other direction. -/
theorem Shows.millis_eq {s : Scan} {t : DateTime} (h : s.Shows t) (ht : t.Valid)
    (hyear : HasYear t.date.year) :
    s.millis = .ok (t.toMillis - s.offsetMinutes.getD 0 * millisPerMinute) := by
  obtain ⟨hday, hour, hclock, hhour⟩ := h
  obtain ⟨⟨hm, hd1, hd2⟩, hh, hmi, hs, hms⟩ := ht
  have hlast := monthLength_le t.date.year t.date.month
  have hyear32 : -0x80000000 ≤ t.date.year ∧ t.date.year ≤ 0x7FFFFFFF := by
    simp only [HasYear, firstYear, lastYear] at hyear
    omega
  have hmonth : ((t.date.month : Int) + 1 - 1).toNat = t.date.month := by omega
  have hdate : Date.Valid ⟨t.date.year, t.date.month, t.date.day⟩ := ⟨hm, hd1, hd2⟩
  have htime : Time.Valid ⟨t.time.hour, t.time.minute, t.time.second, t.time.millisecond⟩ :=
    ⟨hh, hmi, hs, hms⟩
  unfold millis
  rw [hday, hclock]
  simp only [hhour, bind, Except.bind]
  rw [check_of_mem hyear32, check_of_mem (by omega), check_of_mem (by omega),
    check_of_mem (by omega), check_of_mem (by omega), check_of_mem (by omega)]
  simp only [hmonth, Int.toNat_natCast, hdate, hyear, htime, and_self, if_true]
  rfl

/-- Without a zone, or in one that is not off UTC, they denote the milliseconds as they are. -/
theorem Shows.millis_utc {s : Scan} {t : DateTime} (h : s.Shows t) (ht : t.Valid)
    (hyear : HasYear t.date.year) (hoffset : s.offsetMinutes.getD 0 = 0) :
    s.millis = .ok t.toMillis := by
  rw [h.millis_eq ht hyear, hoffset, Int.zero_mul, Int.sub_zero]

/-- What a scan has collected is a date and time of day in UTC, with the hour as it is written: the
scan of every text of a layout. -/
structure Names (s : Scan) (t : DateTime) : Prop where
  day : s.calendarDay = .ok ⟨t.date.year, t.date.month + 1, t.date.day⟩
  clock : s.clockOrMidnight =
    ⟨t.time.hour, t.time.minute, t.time.second, t.time.millisecond⟩
  meridiem : s.meridiem = none
  offset : s.offsetMinutes.getD 0 = 0

/-- **A real date in a year of the calendar is read as its milliseconds.** -/
theorem Names.millis {s : Scan} {t : DateTime} (h : s.Names t) (ht : t.Valid)
    (hyear : HasYear t.date.year) : s.millis = .ok t.toMillis := by
  have hhour : hour24 s.meridiem t.time.hour = .ok t.time.hour := by
    rw [h.meridiem]
    rfl
  have hshows : s.Shows t := ⟨h.day, _, h.clock, hhour⟩
  exact hshows.millis_utc ht hyear h.offset

end Scan
end DateText
end Interchange
