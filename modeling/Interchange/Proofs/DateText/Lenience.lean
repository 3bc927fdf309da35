/-
# Strict and lenient reading

A lenient scan does what a strict scan does, except that it passes over a word that the strict one
rejects.  Whether a word is rejected depends on the word alone, never on what was found before it,
so the two scans walk in step up to the first word that is unknown; where there is none they end in
the same state, or in the same error.

* `step_lenient`: a step differs only at an unknown word;
* `run_lenient`: so does a run;
* `parse_eq_of_read`: a lenient reading gives what a strict one gives, and nothing where the strict
  one rejects anything but a word.
-/
import Interchange.Instant.Action
import Interchange.Proofs.DateText.Steps

namespace Interchange
namespace DateText

namespace Scan

/-! ## 1. Both scans in step -/

/-- **A step of a lenient scan is that of a strict one**, except at an unknown word: the strict scan
stops there with an error that names the word, the lenient one goes on in the state it was in. -/
theorem step_lenient (s : Scan) (token : Token) (rest : List Token) :
    step true s token rest = step false s token rest ∨
      ∃ word, token = .word word ∧ IsUnknown word ∧
        step false s token rest = .error (.unexpectedToken word) := by
  by_cases hword : ∃ word, token = .word word
  · obtain ⟨word, rfl⟩ := hword
    simp only [step]
    rcases readWord_cases word with h | h | ⟨half, h⟩ | ⟨index, -, h⟩ | hunknown
    · exact .inl (by rw [h s])
    · exact .inl (by rw [h s])
    · exact .inl (by rw [h s])
    · exact .inl (by rw [h s])
    · refine .inr ⟨word, rfl, hunknown, ?_⟩
      rw [hunknown s]
      rfl
  · -- only the step at a word asks how the scan reads
    left
    unfold step
    split
    case h_2 word => exact absurd ⟨word, rfl⟩ hword
    all_goals rfl

/-- **A lenient run ends as the strict one does**, unless the strict one stops at an unknown
word. -/
theorem run_lenient (s : Scan) (toks : List Token) :
    run true s toks = run false s toks ∨
      ∃ word, .word word ∈ toks ∧ IsUnknown word ∧
        run false s toks = .error (.unexpectedToken word) := by
  fun_induction run false s toks with
  | case1 s => exact .inl (run_nil true s)
  | case2 s token rest e hstep =>
    rcases step_lenient s token rest with hsame | ⟨word, rfl, hunknown, hword⟩
    · left
      rw [run_cons_of_error (hsame.trans hstep)]
    · rw [hstep] at hword
      obtain rfl := Except.error.inj hword
      exact .inr ⟨word, List.mem_cons_self, hunknown, rfl⟩
  | case3 s token rest s' rest' hstep ih =>
    rcases step_lenient s token rest with hsame | ⟨word, rfl, hunknown, hword⟩
    · rw [run_cons_of_ok (hsame.trans hstep)]
      rcases ih with heq | ⟨word, hmem, hunknown, hword⟩
      · exact .inl heq
      · have hrest : .word word ∈ rest := (suffix_step hstep).mem hmem
        exact .inr ⟨word, List.mem_cons_of_mem token hrest, hunknown, hword⟩
    · rw [hstep] at hword
      contradiction

end Scan

/-! ## 2. Both readings -/

/-- **A lenient reading gives what the strict one gives**, be it an instant or an error, unless the
strict one rejects an unknown word of the text. -/
theorem readMillis_lenient (text : List Char) :
    readMillis true text = readMillis false text ∨
      ∃ word, .word word ∈ tokens true text ∧ Scan.IsUnknown word ∧
        readMillis false text = .error (.unexpectedToken word) := by
  unfold readMillis
  by_cases hblank : text.all isBlank = true
  · left
    rw [if_pos hblank, if_pos hblank]
  · rw [if_neg hblank, if_neg hblank]
    rcases Scan.run_lenient .initial (tokens true text) with heq | ⟨word, hmem, hunknown, hword⟩
    · left
      rw [heq]
    · refine .inr ⟨word, hmem, hunknown, ?_⟩
      rw [hword]
      rfl

theorem readMillis_lenient_of_ok {text : List Char} {ms : Int}
    (h : readMillis false text = .ok ms) : readMillis true text = .ok ms := by
  rcases readMillis_lenient text with hsame | ⟨word, -, -, hword⟩
  · rw [hsame, h]
  · rw [h] at hword
    contradiction

end DateText

namespace Instant

open DateText

/-- What a strict reading leaves of an instant if a rejected text clears it. -/
theorem parse_eq_of_readMillis {text : List Char}
    (h : readMillis true text = readMillis false text) :
    parse text = (read text).toOption.getD empty := by
  unfold parse read
  rw [h]
  cases readMillis false text with
  | ok ms => rw [Except.map, Except.toOption, Option.getD_some]
  | error e => rfl

/-- **A lenient reading differs from a strict one only where the strict one rejects a word.**
Whatever was kept before: what the strict reading accepts, the lenient one sets to the same instant;
a text that the strict reading rejects for anything but a word of letters clears it; and where the
lenient reading gives anything else than that, the text has a word that every strict scan rejects,
and that word is what the strict reading complains of. -/
theorem parse_eq_of_read (before : Instant) (text : List Char) :
    let after := (before.perform (.parse text)).1
    (∀ x, read text = .ok x → after = x) ∧
      (∀ e, read text = .error e → (∀ word, IsLetters word → e ≠ .unexpectedToken word) →
        after = empty) ∧
      (after ≠ (read text).toOption.getD empty →
        ∃ word, IsLetters word ∧ .word word ∈ tokens true text ∧ Scan.IsUnknown word ∧
          read text = .error (.unexpectedToken word)) := by
  intro after
  have hafter : after = parse text := rfl
  rw [hafter]
  rcases readMillis_lenient text with hsame | ⟨word, hmem, hunknown, hword⟩
  · have hparse := parse_eq_of_readMillis hsame
    refine ⟨fun x hx => ?_, fun e he _ => ?_, fun hne => absurd hparse hne⟩
    · rw [hparse, hx]
      rfl
    · rw [hparse, he]
      rfl
  · have hread : read text = .error (.unexpectedToken word) := by
      rw [read, hword]
      rfl
    have hletters : IsLetters word := uniform_of_mem_tokens _ hmem
    refine ⟨fun x hx => ?_, fun e he hother => ?_, fun _ => ⟨word, hletters, hmem, hunknown, hread⟩⟩
    · rw [hread] at hx
      contradiction
    · rw [hread] at he
      exact absurd (Except.error.inj he).symm (hother word hletters)

/-- An unknown word between date and clock, a month that does not exist, and a text that both
readings accept. -/
theorem parse_eq_of_read_today :
    let before : Instant := ⟨Double.ofInt 1⟩
    let after (text : String) := (before.perform (.parse text.toList)).1
    after "1994-11-15 today 8:12" = ofDateTime ⟨⟨1994, 10, 15⟩, ⟨8, 12, 0, 0⟩⟩ ∧
      read "1994-11-15 today 8:12".toList = .error (.unexpectedToken "today".toList) ∧
      Scan.IsUnknown "today".toList ∧
      after "1994-13-15 Z" = empty ∧
      after "1994-11-15 Z" = ofDateTime ⟨⟨1994, 10, 15⟩, .midnight⟩ := by
  intro before after
  have hafter : after "1994-11-15 today 8:12" =
      ofDateTime ⟨⟨1994, 10, 15⟩, ⟨8, 12, 0, 0⟩⟩ := by decide +kernel
  have hstrict : read "1994-11-15 today 8:12".toList =
      .error (.unexpectedToken "today".toList) := by decide +kernel
  have hmonth : read "1994-13-15 Z".toList = .error (.fieldOutOfRange .month 13) := by
    decide +kernel
  have hread : read "1994-11-15 Z".toList = .ok (ofDateTime ⟨⟨1994, 10, 15⟩, .midnight⟩) := by
    decide +kernel
  have hdiffers : after "1994-11-15 today 8:12" ≠
      (read "1994-11-15 today 8:12".toList).toOption.getD empty := by
    rw [hafter, hstrict]
    decide +kernel
  obtain ⟨word, -, -, hunknown, hword⟩ :=
    (parse_eq_of_read before "1994-11-15 today 8:12".toList).2.2 hdiffers
  obtain rfl : "today".toList = word := by
    rw [hstrict] at hword
    exact Error.unexpectedToken.inj (Except.error.inj hword)
  exact ⟨hafter, hstrict, hunknown,
    (parse_eq_of_read before "1994-13-15 Z".toList).2.1 _ hmonth fun _ _ => Error.noConfusion,
    (parse_eq_of_read before "1994-11-15 Z".toList).1 _ hread⟩

end Instant
end Interchange
