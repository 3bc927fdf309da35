/-
# Comments behind a text

A text in parentheses behind a date is a comment, whatever it holds: digits, words, signs, colons or
opening parentheses.  The blank and the parenthesis in front of it end every part that the date may
have left unfinished, and the scan passes over all tokens up to the closing parenthesis.  Where the
date itself has left a comment open, that comment goes on up to the same closing parenthesis.

Only a text of nothing but blanks is told apart from itself with a comment: alone it is empty, and
with a comment its date is missing.

* `tokens_comment`: a comment is one group of tokens between its parentheses;
* `run_withComment`: the scan of a text with a comment is that of the text;
* `read_withComment`: so is the reading.
-/
import Interchange.Proofs.DateText.Appending

namespace Interchange
namespace DateText

/-- A text with a comment behind it, a blank between them. -/
def withComment (text comment : List Char) : List Char := text ++ ' ' :: '(' :: (comment ++ [')'])

variable {text comment : List Char}

/-! ## 1. Tokens -/

/-- **A comment is one group of tokens between its parentheses**: it opens behind a blank and ends
before any run can go on beyond it. -/
theorem tokens_comment (opening : Bool) (comment : List Char) :
    tokens opening ('(' :: (comment ++ [')'])) =
      .symbol '(' :: (tokens false comment ++ [.symbol ')']) := by
  have hclose : ∀ opening, tokens opening [')'] = [.symbol ')'] := by
    intro opening
    rw [tokens_symbol (by decide) (by decide) (by decide) (fun h => absurd h (by decide)),
      tokens_nil]
  rw [tokens_symbol (by decide) (by decide) (by decide) (fun h => absurd h (by decide)),
    tokens_append_break (by decide) (by decide) hclose]

namespace Scan

theorem skipComment_of_not_mem {toks : List Token} (h : .symbol ')' ∉ toks) (rest : List Token) :
    skipComment (toks ++ .symbol ')' :: rest) = rest := by
  induction toks with
  | nil => rfl
  | cons token toks ih =>
    obtain ⟨htoken, htoks⟩ := not_or.mp (mt List.mem_cons.mpr h)
    rw [List.cons_append, skipComment]
    · exact ih htoks
    · rintro rfl
      exact htoken rfl

/-! ## 2. The scan -/

/-- **The scan of a text with a comment is that of the text**, whether it ends or stops. -/
theorem run_withComment (lenient : Bool) (text : List Char) (hclose : ')' ∉ comment) :
    run lenient .initial (tokens true (withComment text comment)) =
      run lenient .initial (tokens true text) := by
  have hskip : skipComment (tokens false comment ++ [.symbol ')']) = [] :=
    skipComment_of_not_mem (not_mem_tokens_of_not_mem hclose) []
  have hapart : StandApart (tokens true ('(' :: (comment ++ [')']))) :=
    standApart_tokens (by decide) (by decide) (by decide) (by decide)
  rw [withComment, tokens_append rfl]
  rcases run_append hapart lenient .initial (tokens true text) with h | ⟨-, h⟩
  · -- the comment is opened where the scan of the text has ended
    have hcomment : ∀ s, run lenient s (tokens true ('(' :: (comment ++ [')']))) = .ok s := by
      intro s
      have hstep : step lenient s (.symbol '(') (tokens false comment ++ [.symbol ')']) =
          .ok (s, []) := congrArg (fun rest => Except.ok (s, rest)) hskip
      rw [tokens_comment, run_cons_of_ok hstep, run_nil]
    simp only [h, hcomment]
    exact bind_pure _
  · -- the text has a comment open, which ends where this one does
    have hopen : skipComment (tokens true ('(' :: (comment ++ [')']))) = [] := by
      rw [tokens_comment, skipComment]
      · exact hskip
      · exact fun h => absurd h (by decide)
    simp only [h, hopen, run_nil]
    exact bind_pure _

end Scan

/-! ## 3. The reading -/

theorem not_blank_withComment (text comment : List Char) :
    (withComment text comment).all isBlank = false := by
  rw [List.all_eq_false]
  exact ⟨'(', by simp [withComment], by decide⟩

/-- **A text with a comment is read as the text**, errors included, unless the text is blank. -/
theorem readMillis_withComment (lenient : Bool) (hclose : ')' ∉ comment) :
    readMillis lenient (withComment text comment) =
      if text.all isBlank then .error (.missingField .date) else readMillis lenient text := by
  rw [readMillis, not_blank_withComment, Scan.run_withComment lenient text hclose]
  by_cases hblank : text.all isBlank = true
  · rw [if_pos hblank, tokens_of_blank hblank, Scan.run_nil]
    rfl
  · rw [if_neg hblank, readMillis, if_neg hblank]
    rfl

end DateText

namespace Instant

open DateText

/-- **A comment behind a text changes nothing**, whatever it holds up to its closing parenthesis,
and whether or not the text has left a comment open: a strict reading gives the same instant or the
same error, and a lenient one sets the same instant.  A blank text, which is empty without a
comment, has a date missing with one, and both readings still give no instant. -/
theorem read_withComment (text : List Char) {comment : List Char} (hclose : ')' ∉ comment) :
    (text.all isBlank = false → read (withComment text comment) = read text) ∧
      (text.all isBlank = true → read text = .error .empty ∧
        read (withComment text comment) = .error (.missingField .date)) ∧
      parse (withComment text comment) = parse text := by
  refine ⟨fun hblank => ?_, fun hblank => ⟨?_, ?_⟩, ?_⟩
  · rw [read, readMillis_withComment false hclose, if_neg (by simp [hblank])]
    rfl
  · rw [read, readMillis, if_pos hblank]
    rfl
  · rw [read, readMillis_withComment false hclose, if_pos hblank]
    rfl
  · rw [parse, parse, readMillis_withComment true hclose]
    by_cases hblank : text.all isBlank = true
    · rw [if_pos hblank, readMillis, if_pos hblank]
    · rw [if_neg hblank]

/-- A date that has left a comment open and a clock unfinished, with an offset, a clock and another
opening parenthesis in the comment behind it. -/
theorem read_withComment_open :
    let comment := "-0800 (12:34 Jun".toList
    ')' ∉ comment ∧
      read (withComment "1994-11-15 08:12 (local".toList comment) =
        .ok (ofDateTime ⟨⟨1994, 10, 15⟩, ⟨8, 12, 0, 0⟩⟩) ∧
      read (withComment "1994-11-15 08:".toList comment) = .error (.missingField .minute) ∧
      parse (withComment "1994-11-15 today".toList comment) =
        ofDateTime ⟨⟨1994, 10, 15⟩, .midnight⟩ ∧
      read (withComment " ".toList comment) = .error (.missingField .date) := by
  intro comment
  have hclose : ')' ∉ comment := by decide +kernel
  have hopen : read "1994-11-15 08:12 (local".toList =
      .ok (ofDateTime ⟨⟨1994, 10, 15⟩, ⟨8, 12, 0, 0⟩⟩) := by decide +kernel
  have hclock : read "1994-11-15 08:".toList = .error (.missingField .minute) := by
    decide +kernel
  have htoday : parse "1994-11-15 today".toList = ofDateTime ⟨⟨1994, 10, 15⟩, .midnight⟩ := by
    decide +kernel
  refine ⟨hclose, ?_, ?_, ?_, ?_⟩
  · rw [(read_withComment _ hclose).1 (by decide +kernel), hopen]
  · rw [(read_withComment _ hclose).1 (by decide +kernel), hclock]
  · rw [(read_withComment _ hclose).2.2, htoday]
  · exact ((read_withComment _ hclose).2.1 (by decide +kernel)).2

end Instant
end Interchange
