/-
# Reading is safe

Reading a date text goes through without a fault, operation by operation, and gives what
`DateText.readMillis` gives.  The numbers of a scan are as they are written, so that a century can
be added to them; each part has been checked before it goes into a narrower word, but for the
milliseconds, which the scan keeps below a thousand; and what the calendar has fits into 64 bits.

* `millis_eq`: the instant of the collected parts;
* `readMillis_eq`: the whole reading;
* `readMillis_safe`: nothing goes wrong, and no text is rejected for its time of day.
-/
import Interchange.Proofs.DateText.Acceptance
import Interchange.Proofs.DateText.Appending
import Interchange.Proofs.DateText.Walk

namespace Interchange
namespace DateText

open Calendar

namespace Machine

variable {α : Type} {s : Scan}

/-! ## 1. The instant -/

theorem fullYear_eq {q : Quantity} (h : q.Sized) : fullYear q = .ok q.fullYear := by
  have hdigits := h.one_le_digits
  have hlimit : (2100 : Int) ≤ countLimit := by decide
  unfold fullYear Quantity.fullYear
  by_cases hshort : q.negative = false ∧ q.digits ≤ 2
  · have hvalue := h.natAbs_lt hshort.2
    rw [if_pos hshort, if_pos ⟨hshort.1, by omega⟩]
    split
    · exact fit_of_mem (by omega)
    · exact fit_of_mem (by omega)
  · rw [if_neg hshort, if_neg fun hboth => hshort ⟨hboth.1, by omega⟩]

/-- **The day is found without a fault** from numbers that are as they are written. -/
theorem calendarDay_eq (h : ∀ q ∈ s.numbers, q.Sized) : calendarDay s = lift s.calendarDay := by
  unfold calendarDay Scan.calendarDay
  rcases hnumbers : s.numbers with _ | ⟨a, _ | ⟨b, _ | ⟨c, _ | ⟨d, rest⟩⟩⟩⟩ <;>
    cases s.month
  all_goals rw [hnumbers] at h
  case cons.cons.nil.some =>
    dsimp only
    rw [fullYear_eq (h a (by simp)), fullYear_eq (h b (by simp))]
    split <;> rfl
  case cons.cons.cons.nil.none =>
    dsimp only
    rw [fullYear_eq (h c (by simp))]
    split <;> rfl
  case cons.nil.some =>
    dsimp only
    split <;> rfl
  all_goals rfl

/-- **The hour is found without a fault.** -/
theorem hour24_eq (half : Option Meridiem) (hour : Nat) :
    hour24 half hour = lift (Scan.hour24 half hour) := by
  cases half with
  | none => rfl
  | some half =>
    simp only [hour24, Scan.hour24]
    by_cases hrange : 1 ≤ hour ∧ hour ≤ 12
    · have hlimit : 24 ≤ countLimit := by decide
      rw [if_pos hrange, if_pos hrange]
      by_cases hnoon : hour = 12
      · subst hnoon
        cases half <;> rfl
      · have hmod : hour % 12 = hour := Nat.mod_eq_of_lt (by omega)
        have hbefore : hour < 12 := by omega
        rw [hmod]
        cases half with
        | am =>
          dsimp only
          rw [if_neg hnoon, lift_ok]
        | pm =>
          dsimp only
          rw [if_pos hbefore, fitNat_of_le (by omega), lift_ok]
    · rw [if_neg hrange, if_neg hrange, lift_error]

theorem check_bind {field : Field} {value low high : Int} {f : Unit → Except Stop α}
    {g : Unit → Except Error α} (h : low ≤ value ∧ value ≤ high → f () = lift (g ())) :
    (lift (Scan.check field value low high) >>= f) =
      lift (Scan.check field value low high >>= g) := by
  unfold Scan.check
  split
  · next hrange => exact h hrange
  · rfl

/-- **The instant of bounded parts is found without a fault.**  Each cast is of a part that was
checked, but for the milliseconds, which the scan keeps below a thousand. -/
theorem millis_eq (hs : s.Bounded) (hsized : ∀ q ∈ s.numbers, q.Sized) :
    millis s = lift s.millis := by
  have hmillisecond := hs.millisecond_lt
  unfold millis Scan.millis
  rw [calendarDay_eq hsized]
  cases s.calendarDay with
  | error e => rfl
  | ok day =>
    simp only [lift_ok, ok_bind, hour24_eq]
    cases Scan.hour24 s.meridiem s.clockOrMidnight.hour with
    | error e => rfl
    | ok hour =>
      simp only [lift_ok, ok_bind]
      refine check_bind fun hyear => ?_
      refine check_bind fun hmonth => ?_
      refine check_bind fun hday => ?_
      refine check_bind fun hhour => ?_
      refine check_bind fun hminute => ?_
      refine check_bind fun hsecond => ?_
      have hmonth0 : day.month.toNat - 1 = (day.month - 1).toNat := by omega
      rw [narrow_of_mem hmonth, ok_bind, narrow_of_mem hday, ok_bind, hmonth0]
      split
      · next hdate =>
        rw [narrow_of_mem hhour, ok_bind, narrow_of_mem hminute, ok_bind, narrow_of_mem hsecond,
          ok_bind, narrow_of_mem (by omega), ok_bind]
        simp only [Int.toNat_natCast]
        split
        · next htime =>
          have ht : DateTime.Valid ⟨_, _⟩ := ⟨hdate.1, htime⟩
          have hbounds := DateTime.toMillis_bounds ht hdate.2
          have hlimit : (2 ^ 60 : Int) ≤ countLimit := by decide
          rw [firstMillis_eq, lastMillis_eq] at hbounds
          rw [fit_of_mem (by omega), ok_bind]
          rfl
        · rfl
      · rfl

/-! ## 2. The reading -/

theorem tokens_append_of_blank {blanks : List Char} (h : blanks.all isBlank = true)
    (opening : Bool) (text : List Char) :
    tokens opening (text ++ blanks) = tokens opening text := by
  cases blanks with
  | nil => rw [List.append_nil]
  | cons c rest =>
    rw [List.all_cons, Bool.and_eq_true] at h
    rw [tokens_append h.1, tokens_of_blank h.2, List.append_nil]

theorem tokens_of_blank_append {blanks : List Char} (h : blanks.all isBlank = true)
    (text : List Char) : tokens true (blanks ++ text) = tokens true text := by
  induction blanks with
  | nil => rfl
  | cons c rest ih =>
    rw [List.all_cons, Bool.and_eq_true] at h
    rw [List.cons_append, tokens_blank h.1, ih h.2]

/-- **The blanks at the ends of a text have no tokens.** -/
theorem tokens_trim (text : List Char) : tokens true (trim text) = tokens true text := by
  have hlast : ((text.dropWhile isBlank).rtakeWhile isBlank).all isBlank = true :=
    List.all_eq_true.mpr fun _ hc => List.mem_rtakeWhile_imp hc
  calc tokens true (trim text)
      = tokens true (trim text ++ (text.dropWhile isBlank).rtakeWhile isBlank) :=
        (tokens_append_of_blank hlast true _).symm
    _ = tokens true (text.dropWhile isBlank) := by rw [trim, List.rdropWhile_append_rtakeWhile]
    _ = tokens true (text.takeWhile isBlank ++ text.dropWhile isBlank) :=
        (tokens_of_blank_append List.all_takeWhile _).symm
    _ = tokens true text := by rw [List.takeWhile_append_dropWhile]

theorem isEmpty_trim (text : List Char) : (trim text).isEmpty = text.all isBlank := by
  rw [Bool.eq_iff_iff, List.isEmpty_iff, trim, List.rdropWhile_eq_nil_iff, List.all_eq_true]
  refine ⟨fun h c hc => ?_, fun h c hc => h c ((List.dropWhile_suffix _).mem hc)⟩
  rw [← List.takeWhile_append_dropWhile (p := isBlank) (l := text), List.mem_append] at hc
  rcases hc with hc | hc
  · exact List.all_eq_true.mp List.all_takeWhile c hc
  · exact h c hc

/-- **A text is read as the lists and the unbounded numbers have it**, errors included.  So what is
proved of `readMillis` is proved of the machine. -/
theorem readMillis_eq (lenient : Bool) (text : List Char) :
    readMillis lenient text = lift (DateText.readMillis lenient text) := by
  simp only [readMillis, DateText.readMillis, isEmpty_trim, tokenize_eq, tokens_trim, ok_bind]
  split
  · rfl
  · rw [run_eq lenient uniform_of_mem_tokens, List.drop_zero]
    cases hrun : Scan.run lenient .initial (tokens true text) with
    | error e => rfl
    | ok s =>
      have hsized : ∀ q ∈ s.numbers, q.Sized :=
        Scan.sized_run (fun q hq => absurd hq List.not_mem_nil) uniform_of_mem_tokens hrun
      exact millis_eq (bounded_of_run_tokens hrun) hsized

/-- **Reading is safe.**  Whatever the text, and whether or not unknown words are skipped, no text
is cut beyond its end or inside a character, no index is out of range, nothing overflows, and every
number that goes into a narrower word is in the range of its place.  Each step of the walk gets
ahead.  What a text is rejected for is never the instant as a whole, since the time of day exists
once its parts are checked. -/
theorem readMillis_safe (lenient : Bool) (text : List Char) :
    (∀ f, readMillis lenient text ≠ .error (.fault f)) ∧
      readMillis lenient text = lift (DateText.readMillis lenient text) ∧
      readMillis lenient text ≠ .error (.rejected .unrepresentable) ∧
      ∀ s i, i < (tokens true text).length →
        (∀ f, step lenient (tokens true text) s i ≠ .error (.fault f)) ∧
          ∀ s' i', step lenient (tokens true text) s i = .ok (s', i') → i < i' := by
  have heq := readMillis_eq lenient text
  refine ⟨fun f => ?_, heq, fun h => ?_, fun s i hi => ?_⟩
  · rw [heq]
    exact lift_ne_fault _ f
  · rw [heq, lift_eq_rejected_iff] at h
    exact readMillis_ne_unrepresentable lenient text h
  · obtain ⟨token, rest, h⟩ := exists_drop_eq_cons hi
    have hsim := step_simulates (s := s) lenient uniform_of_mem_tokens h
    refine ⟨hsim.ne_fault, fun s' i' hstep => ?_⟩
    rw [hstep] at hsim
    exact hsim.lt

/-- The last day of the calendar, with blanks of three bytes, a fraction of a second of twenty
digits, half a day and a comment, and a year of twenty digits. -/
theorem readMillis_safe_wide :
    let last := "\u3000Fri, 31 Dec 262142 11:59:59.99999999999999999999 PM -23:59 (é) ".toList
    let wide := "99999999999999999999/1/1".toList
    readMillis false last = .ok (lastMillis + 86340000) ∧
      (∀ f, readMillis false last ≠ .error (.fault f)) ∧
      readMillis false wide = .error (.rejected (.fieldOutOfRange .year 9223372036854775807)) ∧
      ∀ f, readMillis false wide ≠ .error (.fault f) := by
  intro last wide
  have hlast : DateText.readMillis false last = .ok (lastMillis + 86340000) := by decide +kernel
  have hwide : DateText.readMillis false wide =
      .error (.fieldOutOfRange .year 9223372036854775807) := by decide +kernel
  obtain ⟨hsafe, heq, -⟩ := readMillis_safe false last
  obtain ⟨hsafe', heq', -⟩ := readMillis_safe false wide
  rw [hlast] at heq
  rw [hwide] at heq'
  exact ⟨heq, hsafe, heq', hsafe'⟩

end Machine
end DateText
end Interchange
