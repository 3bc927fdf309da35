/-
# Words behind a date

A lenient reading passes over a word that names nothing.  Whether a word names a month is decided by
its first three letters alone, so a word that only begins like a month is taken for that month.
Behind a date in three numbers this is one part too many, and the text is no date any more.

* `run_word_lenient`: a word that does not begin like a month leaves a lenient scan as it is;
* `parse_append_word`: such a word behind a text changes nothing, and one that begins like a month
  clears a date in three numbers;
* `parse_append_junk`: a word that names no month clears a date.
-/
import Interchange.Proofs.DateText.Appending
import Interchange.Proofs.DateText.Orders

namespace Interchange

open Calendar

def Calendar.fullWeekdayNames : List (List Char) :=
  ["Sunday", "Monday", "Tuesday", "Wednesday", "Thursday", "Friday", "Saturday"].map String.toList

namespace DateText

/-! ## 1. What a word names -/

/-- The word is of letters, and none of the separator, the zones and the halves of the day, in any
letter case. -/
def IsOrdinary (word : List Char) : Prop :=
  IsLetters word ∧ ∀ special ∈ Scan.specialWords, word.map Char.toLower ≠ special.toList

/-- The word is a name cut to three letters or more, in any letter case: what a reader would take
for that name. -/
def IsCutName (names : List (List Char)) (word : List Char) : Prop :=
  3 ≤ word.length ∧ ∃ name ∈ names, word.map Char.toLower <+: name.map Char.toLower

/-- The first three letters of the word are those of a month, in any letter case: what `lookup`
takes for that month. -/
def BeginsLikeMonth (word : List Char) : Prop :=
  ∃ name ∈ monthNames, name.map Char.toLower = (word.take 3).map Char.toLower

instance (word : List Char) : Decidable (BeginsLikeMonth word) :=
  inferInstanceAs (Decidable (∃ name ∈ monthNames, _))

instance (names : List (List Char)) (word : List Char) : Decidable (IsCutName names word) :=
  inferInstanceAs (Decidable (_ ∧ _))

theorem nameIndex_eq_none_iff (word : List Char) :
    Scan.nameIndex monthNames word = none ↔ ¬BeginsLikeMonth word := by
  unfold Scan.nameIndex BeginsLikeMonth
  split
  · next hshort =>
    have hthree : ∀ name ∈ monthNames, name.length = 3 := by decide
    simp only [true_iff, not_exists, not_and]
    intro name hname heq
    have hlength := congrArg List.length heq
    simp only [List.length_map, List.length_take, hthree name hname] at hlength
    omega
  · simp only [List.findIdx?_eq_none_iff, decide_eq_false_iff_not, not_exists, not_and]

namespace Scan

/-- **A word that begins like no month leaves a lenient scan as it is**: it names a weekday and
changes nothing, or it is unknown and is skipped. -/
theorem run_word_lenient {word : List Char} (hword : IsOrdinary word)
    (hmonth : ¬BeginsLikeMonth word) (s : Scan) : run true s [.word word] = .ok s := by
  have hnone := (nameIndex_eq_none_iff word).mpr hmonth
  have hstep : step true s (.word word) [] = .ok (s, []) := by
    by_cases hweekday : (nameIndex weekdayNames word).isSome = true
    · simp only [step, readWord_lookup hword.2, hnone, if_pos hweekday]
    · simp only [step, readWord_lookup hword.2, hnone, if_neg hweekday, if_true]
  rw [run_cons_of_ok hstep, run_nil]

theorem run_word_month {word : List Char} (hword : IsOrdinary word) (hmonth : BeginsLikeMonth word)
    (s : Scan) : ∃ month, run true s [.word word] = .ok { s with month := some month } := by
  cases hindex : nameIndex monthNames word with
  | none => exact absurd hmonth ((nameIndex_eq_none_iff word).mp hindex)
  | some index =>
    have hread : s.readWord word = .ok { s with month := some (index + 1) } := by
      rw [readWord_lookup hword.2, hindex]
    exact ⟨index + 1, by rw [run_word hread, run_nil]⟩

/-- Three numbers and a month name are a number too many. -/
theorem millis_three_and_month {s : Scan} {month : Nat} (hnumbers : s.numbers.length = 3)
    (hmonth : s.month = some month) : ∃ e, s.millis = .error e := by
  obtain ⟨a, b, c, habc⟩ := List.length_eq_three.mp hnumbers
  have hday : s.calendarDay = .error (.unexpectedToken (Decimal.signed c.value)) := by
    rw [calendarDay, hmonth, habc]
    rfl
  refine ⟨.unexpectedToken (Decimal.signed c.value), ?_⟩
  rw [millis, hday]
  rfl

end Scan

/-! ## 2. A word behind a text -/

theorem not_blank_append_word (text : List Char) {word : List Char} (h : IsLetters word) :
    (text ++ ' ' :: word).all isBlank = false := by
  obtain ⟨c, hc⟩ := List.exists_mem_of_ne_nil word h.1
  rw [List.all_eq_false]
  exact ⟨c, by simp [hc], by simp [not_isBlank_of_isAlpha (h.2 c hc)]⟩

/-- **A word that begins like no month is passed over** behind any text: the lenient scan is the
same. -/
theorem run_append_word (text : List Char) {word : List Char} (hword : IsOrdinary word)
    (hmonth : ¬BeginsLikeMonth word) :
    Scan.run true .initial (tokens true (text ++ ' ' :: word)) =
      Scan.run true .initial (tokens true text) := by
  have hblank : isBlank ' ' = true := rfl
  rw [tokens_append hblank, tokens_letters hword.1]
  rcases Scan.run_append (standApart_word word []) true .initial (tokens true text) with h | ⟨-, h⟩
  · simp only [h, Scan.run_word_lenient hword hmonth]
    exact bind_pure _
  · -- the comment swallows the word
    simp only [h, Scan.skipComment, Scan.run_nil]
    exact bind_pure _

end DateText

namespace Instant

open DateText

/-- **A word behind a text changes nothing, unless it begins like a month**, whatever the text is.
A word that begins like a month counts as that month: behind a date in three numbers it is one part
too many, and the date is cleared. -/
theorem parse_append_word (text : List Char) {word : List Char} (hword : IsOrdinary word) :
    (¬BeginsLikeMonth word → parse (text ++ ' ' :: word) = parse text) ∧
      (BeginsLikeMonth word → '(' ∉ text →
        ∀ s, Scan.run true .initial (tokens true text) = .ok s → s.numbers.length = 3 →
          parse (text ++ ' ' :: word) = empty) := by
  have hnot := not_blank_append_word text hword.1
  refine ⟨fun hmonth => ?_, fun hmonth hopen s hs hnumbers => ?_⟩
  · -- a blank text and a word alone are rejected with different errors, and both clear the date
    rw [parse, parse, readMillis, readMillis, hnot, run_append_word text hword hmonth]
    by_cases hblank : text.all isBlank = true
    · rw [if_pos hblank, tokens_of_blank hblank, Scan.run_nil]
      rfl
    · rw [if_neg hblank]
      rfl
  · obtain ⟨month, hrun⟩ := Scan.run_word_month hword hmonth s
    obtain ⟨e, he⟩ : ∃ e, ({ s with month := some month } : Scan).millis = .error e :=
      Scan.millis_three_and_month hnumbers rfl
    have hapart : StandApart (tokens true word) := by
      rw [tokens_letters hword.1]
      exact standApart_word word []
    have hread : readMillis true (text ++ ' ' :: word) = .error e := by
      rw [readMillis, hnot, run_tokens_append rfl true hopen hapart, hs, tokens_letters hword.1]
      simp only [Bool.false_eq_true, if_false, bind, Except.bind, hrun, he]
    rw [parse, hread]

/-- A word that begins like no month, and one that begins like March. -/
theorem parse_append_word_local :
    let text := "1994-11-15 08:12:31".toList
    IsOrdinary "local".toList ∧ ¬BeginsLikeMonth "local".toList ∧
      parse (text ++ ' ' :: "local".toList) = ofDateTime ⟨⟨1994, 10, 15⟩, ⟨8, 12, 31, 0⟩⟩ ∧
      IsOrdinary "Marsbound".toList ∧ BeginsLikeMonth "Marsbound".toList ∧
      parse (text ++ ' ' :: "Marsbound".toList) = empty := by
  intro text
  have hlocal : IsOrdinary "local".toList :=
    ⟨isLetters_of_all (by decide +kernel), by decide +kernel⟩
  have hmars : IsOrdinary "Marsbound".toList :=
    ⟨isLetters_of_all (by decide +kernel), by decide +kernel⟩
  have hnoMonth : ¬BeginsLikeMonth "local".toList := by decide +kernel
  have hmonth : BeginsLikeMonth "Marsbound".toList := by decide +kernel
  have hdate : parse text = ofDateTime ⟨⟨1994, 10, 15⟩, ⟨8, 12, 31, 0⟩⟩ := by decide +kernel
  have hopen : '(' ∉ text := by decide +kernel
  obtain ⟨s, hs, hnumbers⟩ : ∃ s, Scan.run true .initial (tokens true text) = .ok s ∧
      s.numbers.length = 3 := by
    refine ⟨⟨[⟨1994, 4, false⟩, ⟨11, 2, false⟩, ⟨15, 2, false⟩], none, some ⟨8, 12, 31, 0⟩, none,
      none, false⟩, by decide +kernel, rfl⟩
  refine ⟨hlocal, hnoMonth, ?_, hmars, hmonth, ?_⟩
  · rw [(parse_append_word text hlocal).1 hnoMonth, hdate]
  · exact (parse_append_word text hmars).2 hmonth hopen s hs hnumbers

/-- **A word that names no month, no weekday, no zone and no half of the day can clear a date**:
`junk` is taken for June. -/
theorem parse_append_junk :
    ∃ text word, IsOrdinary word ∧ ¬IsCutName (fullMonthNames ++ fullWeekdayNames) word ∧
      parse text = ofDateTime ⟨⟨1994, 10, 15⟩, ⟨8, 12, 31, 0⟩⟩ ∧
      parse (text ++ ' ' :: word) = empty ∧ parse (text ++ ' ' :: word) ≠ parse text := by
  have hdate : parse "1994-11-15 08:12:31".toList =
      ofDateTime ⟨⟨1994, 10, 15⟩, ⟨8, 12, 31, 0⟩⟩ := by decide +kernel
  have hclears : parse ("1994-11-15 08:12:31".toList ++ ' ' :: "junk".toList) = empty := by
    decide +kernel
  refine ⟨_, _, ⟨isLetters_of_all (by decide +kernel), by decide +kernel⟩, by decide +kernel, hdate,
    hclears, ?_⟩
  rw [hdate, hclears]
  decide +kernel

end Instant
end Interchange
