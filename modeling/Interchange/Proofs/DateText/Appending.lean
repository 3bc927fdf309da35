/-
# Texts with more behind them

The tokens of two texts with a blank between them are those of the one and then those of the other.
A scan of both goes on where the scan of the first ended, errors included, as long as the second
stands apart: a number, a colon or a point could still belong to a clock or an offset that the first
one ends with.  Only a comment reaches further.  One that the first text leaves open goes on up to
the next closing parenthesis of the second.

* `tokens_append_break`, `tokens_append`: a symbol or a blank keeps the tokens of two texts apart;
* `step_append`, `run_append`: a step and a run are not changed by what stands apart behind them;
* `run_tokens_append`: the scan of two texts.
-/
import Interchange.Proofs.DateText.Steps

namespace Interchange
namespace DateText

/-! ## 1. Tokens -/

/-- A run ends at the next character outside its class, whatever comes behind. -/
theorem span_append_cons {p : Char → Bool} {c : Char} (hc : p c = false) (text more : List Char) :
    (text ++ c :: more).takeWhile p = text.takeWhile p ∧
      (text ++ c :: more).dropWhile p = text.dropWhile p ++ c :: more := by
  induction text with
  | nil => simp [hc]
  | cons d text ih =>
    by_cases hd : p d = true
    · simp [hd, ih]
    · simp [hd]

theorem startsWithDigit_append_cons {c : Char} (hc : c.isDigit = false) (text more : List Char) :
    startsWithDigit (text ++ c :: more) = startsWithDigit text := by
  cases text with
  | nil => exact hc
  | cons d text => rfl

/-- **A character that belongs to no run keeps the tokens of two texts apart**, if it has the same
tokens with what follows it whether a field may open there or not. -/
theorem tokens_append_break {c : Char} {more : List Char} {tail : List Token}
    (hdigit : c.isDigit = false) (halpha : c.isAlpha = false)
    (htail : ∀ opening, tokens opening (c :: more) = tail) (opening : Bool) (text : List Char) :
    tokens opening (text ++ c :: more) = tokens opening text ++ tail := by
  -- the character ends a run that is still open, and makes no sign of a minus before it
  fun_induction tokens opening text with
  | case1 opening => exact htail opening
  | case2 opening d rest h ih => rw [List.cons_append, tokens_blank h, ih]
  | case3 opening d rest h hm ih =>
    obtain ⟨rfl, rfl, hd⟩ := hm
    rw [List.cons_append, tokens_leadingMinus (by rwa [startsWithDigit_append_cons hdigit]), ih,
      List.cons_append]
  | case4 opening d rest h hm hd ih =>
    have hspan := span_append_cons hdigit rest more
    rw [List.cons_append, tokens, if_neg h, if_neg (fun h => ne_minus_of_isDigit hd h.1), if_pos hd,
      hspan.1, hspan.2, ih, List.cons_append]
  | case5 opening d rest h hm hd ha ih =>
    have hspan := span_append_cons halpha rest more
    rw [List.cons_append, tokens, if_neg h, if_neg (fun h => ne_minus_of_isAlpha ha h.1), if_neg hd,
      if_pos ha, hspan.1, hspan.2, ih, List.cons_append]
  | case6 opening d rest h hm hd ha ih =>
    rw [List.cons_append, tokens, if_neg h, startsWithDigit_append_cons hdigit, if_neg hm,
      if_neg hd, if_neg ha, ih, List.cons_append]

/-- **A blank keeps the tokens of two texts apart**, and behind it a field may open, so that the
second text is cut as if it stood alone. -/
theorem tokens_append {c : Char} (hc : isBlank c = true) (opening : Bool)
    (text more : List Char) :
    tokens opening (text ++ c :: more) = tokens opening text ++ tokens true more :=
  tokens_append_break (not_isDigit_of_isBlank hc) (not_isAlpha_of_isBlank hc)
    (fun _ => tokens_blank hc) opening text

/-! ## 2. What stands apart -/

/-- Whether a token can belong to a clock or an offset that is read before it.  These look ahead for
a colon, a point and a number, and for nothing else. -/
def Token.joins : Token → Bool
  | .number _ | .symbol ':' | .symbol '.' => true
  | _ => false

theorem Token.joins_symbol {c : Char} (hcolon : c ≠ ':') (hpoint : c ≠ '.') :
    (Token.symbol c).joins = false := by
  unfold Token.joins
  split
  · next h => contradiction
  · next h => exact absurd (Token.symbol.inj h) hcolon
  · next h => exact absurd (Token.symbol.inj h) hpoint
  · rfl

/-- Tokens that begin with nothing that belongs to what is read before them. -/
def StandApart (more : List Token) : Prop := ∀ token ∈ more.head?, token.joins = false

theorem standApart_word (letters : List Char) (rest : List Token) :
    StandApart (.word letters :: rest) := by
  intro token htoken
  obtain rfl := Option.some.inj htoken
  rfl

/-- A token that could belong to what is read before it is not the first of those that stand
apart. -/
theorem StandApart.of_append {more rest rest' : List Token} (hmore : StandApart more)
    {token : Token} (htoken : token.joins = true) (h : rest ++ more = token :: rest') :
    ∃ rest'', rest = token :: rest'' ∧ rest' = rest'' ++ more := by
  cases rest with
  | nil =>
    rw [List.nil_append] at h
    have hjoins := hmore token (by rw [h]; rfl)
    rw [htoken] at hjoins
    contradiction
  | cons first rest =>
    obtain ⟨rfl, rfl⟩ := List.cons.inj h
    exact ⟨rest, rfl, rfl⟩

/-- The same of two such tokens. -/
theorem StandApart.of_append_two {more rest rest' : List Token} (hmore : StandApart more)
    {first second : Token} (hfirst : first.joins = true) (hsecond : second.joins = true)
    (h : rest ++ more = first :: second :: rest') :
    ∃ rest'', rest = first :: second :: rest'' ∧ rest' = rest'' ++ more := by
  obtain ⟨tail, rfl, htail⟩ := hmore.of_append hfirst h
  obtain ⟨tail, rfl, hrest⟩ := hmore.of_append hsecond htail.symm
  exact ⟨tail, rfl, hrest⟩

namespace Scan

def followedBy (more : List Token) (r : Scan × List Token) : Scan × List Token :=
  (r.1, r.2 ++ more)

variable {more : List Token}

theorem map_followedBy (x : Except Error Scan) (rest : List Token) :
    (x.map (·, rest)).map (followedBy more) = x.map (·, rest ++ more) := by
  cases x <;> rfl

/-- **A clock takes in nothing that stands apart.**  It looks ahead three times, and what it looks
for joins it. -/
theorem readClock_append (hmore : StandApart more) (s : Scan) (hour : List Char)
    (rest : List Token) :
    s.readClock hour (rest ++ more) = (s.readClock hour rest).map (followedBy more) := by
  fun_cases readClock s hour rest with
  | case1 rest hclock =>
    unfold readClock
    rw [if_pos hclock]
    rfl
  | case2 hclock minute second fraction rest =>
    exact readClock_fraction (Option.not_isSome_iff_eq_none.mp hclock)
  | case3 hclock minute second rest hpoint =>
    refine readClock_second_of_ne (Option.not_isSome_iff_eq_none.mp hclock) ?_
    intro fraction rest' h
    obtain ⟨tail, htail, -⟩ := hmore.of_append_two rfl rfl h
    exact hpoint fraction tail htail
  | case4 hclock minute rest _ hcolon =>
    refine readClock_minute_of_ne (Option.not_isSome_iff_eq_none.mp hclock) ?_
    intro second rest' h
    obtain ⟨tail, htail, -⟩ := hmore.of_append_two rfl rfl h
    exact hcolon second tail htail
  | case5 rest hclock _ _ hminute =>
    refine readClock_of_ne (Option.not_isSome_iff_eq_none.mp hclock) ?_
    intro minute rest' h
    obtain ⟨tail, htail, -⟩ := hmore.of_append rfl h
    exact hminute minute tail htail

/-- **A number takes in nothing that stands apart.** -/
theorem readNumber_append (hmore : StandApart more) (s : Scan) (digits : List Char)
    (rest : List Token) :
    s.readNumber digits (rest ++ more) = (s.readNumber digits rest).map (followedBy more) := by
  by_cases hcolon : ∃ after, rest = .symbol ':' :: after
  · obtain ⟨after, rfl⟩ := hcolon
    simp only [readNumber, List.cons_append]
    split
    · rfl
    · exact readClock_append hmore _ digits after
  · have hcolon' : ∀ after, rest ++ more = .symbol ':' :: after → False := by
      intro after h
      obtain ⟨tail, htail, -⟩ := hmore.of_append rfl h
      exact hcolon ⟨tail, htail⟩
    have hcolon'' : ∀ after, rest = .symbol ':' :: after → False :=
      fun after h => hcolon ⟨after, h⟩
    -- both sides are in the branch where no colon follows, which is what the two facts are for
    simp only [readNumber]
    split
    · split
      · rfl
      · exact (map_followedBy _ _).symm
    · exact (map_followedBy _ _).symm

/-- **An offset takes in nothing that stands apart**: its digits are one token, and behind them it
looks for a colon only. -/
theorem readOffset_append (hmore : StandApart more) (s : Scan) (direction : Direction)
    (rest : List Token) :
    s.readOffset direction (rest ++ more) =
      (s.readOffset direction rest).map (followedBy more) := by
  fun_cases readOffset s direction rest with
  | case1 digits rest hfour =>
    rw [map_followedBy]
    exact if_pos hfour
  | case2 digits hfour htwo minutes rest =>
    rw [map_followedBy]
    simp only [List.cons_append, readOffset, if_neg hfour, if_pos htwo]
  | case3 digits rest hfour htwo hcolon =>
    have hcolon' : ∀ minutes rest',
        rest ++ more = .symbol ':' :: .number minutes :: rest' → False := by
      intro minutes rest' h
      obtain ⟨tail, htail, -⟩ := hmore.of_append_two rfl rfl h
      exact hcolon minutes tail htail
    rw [map_followedBy]
    simp only [List.cons_append, readOffset, if_neg hfour, if_pos htwo]
  | case4 digits rest hfour htwo =>
    simp only [List.cons_append, readOffset, if_neg hfour, if_neg htwo]
    rfl
  | case5 rest hnumber =>
    have hnone : ∀ digits rest', rest ++ more = .number digits :: rest' → False := by
      intro digits rest' h
      obtain ⟨tail, htail, -⟩ := hmore.of_append rfl h
      exact hnumber digits tail htail
    simp only [readOffset]
    rfl

theorem startsWithNumber_append (hmore : StandApart more) (rest : List Token) :
    startsWithNumber (rest ++ more) = startsWithNumber rest := by
  cases rest with
  | nil =>
    cases more with
    | nil => rfl
    | cons token more =>
      cases token with
      | number digits =>
        have hjoins : true = false := hmore (.number digits) rfl
        contradiction
      | word letters => rfl
      | symbol c => rfl
      | leadingMinus => rfl
  | cons token rest => cases token <;> rfl

/-! ## 3. Steps and runs -/

/-- A comment that is closed ends where it is closed, whatever comes behind; one that is open goes
on. -/
theorem skipComment_append (rest more : List Token) :
    skipComment (rest ++ more) = skipComment rest ++ more ∨
      (skipComment rest = [] ∧ skipComment (rest ++ more) = skipComment more) := by
  fun_induction skipComment rest with
  | case1 => exact .inr ⟨rfl, rfl⟩
  | case2 rest => exact .inl rfl
  | case3 token rest hclose ih =>
    have hskip : skipComment (token :: rest ++ more) = skipComment (rest ++ more) := by
      rw [List.cons_append, skipComment]
      exact hclose
    rw [hskip]
    exact ih

/-- **A step is not changed by what stands apart behind it**, unless it opens a comment. -/
theorem step_append (hmore : StandApart more) (lenient : Bool) (s : Scan) {token : Token}
    (rest : List Token) (htoken : token ≠ .symbol '(') :
    step lenient s token (rest ++ more) = (step lenient s token rest).map (followedBy more) := by
  unfold step
  split
  case h_1 digits => exact readNumber_append hmore s digits rest
  case h_2 letters =>
    split
    · rfl
    · split <;> rfl
  case h_3 =>
    split
    · exact readOffset_append hmore s .behind rest
    · rfl
  case h_4 =>
    rw [startsWithNumber_append hmore]
    split
    · exact readOffset_append hmore s .ahead rest
    · rfl
  case h_5 =>
    rw [startsWithNumber_append hmore]
    split
    · exact readOffset_append hmore s .behind rest
    · rfl
  case h_6 => exact absurd rfl htoken
  all_goals rfl

/-- **A run goes on where the run of the first tokens ended**, errors included, as long as the
others stand apart.  If the first tokens leave a comment open, it goes on first. -/
theorem run_append (hmore : StandApart more) (lenient : Bool) (s : Scan) (toks : List Token) :
    run lenient s (toks ++ more) = (run lenient s toks >>= fun s' => run lenient s' more) ∨
      (.symbol '(' ∈ toks ∧ run lenient s (toks ++ more) =
        run lenient s toks >>= fun s' => run lenient s' (skipComment more)) := by
  fun_induction run lenient s toks with
  | case1 s => exact .inl rfl
  | case2 s token rest e hstep =>
    have htoken : token ≠ .symbol '(' := by
      rintro rfl
      contradiction
    left
    rw [List.cons_append, run_cons_of_error (e := e)]
    · rfl
    · rw [step_append hmore lenient s rest htoken, hstep]
      rfl
  | case3 s token rest s' rest' hstep ih =>
    have hgoes : step lenient s token (rest ++ more) = .ok (s', rest' ++ more) →
        run lenient s (token :: rest ++ more) = run lenient s' (rest' ++ more) :=
      run_cons_of_ok
    have hback : .symbol '(' ∈ rest' → .symbol '(' ∈ token :: rest := fun hmem =>
      List.mem_cons_of_mem token ((suffix_step hstep).mem hmem)
    by_cases htoken : token = .symbol '('
    · -- the only step that looks beyond the tokens that can belong to a part
      subst htoken
      obtain ⟨rfl, rfl⟩ := Prod.mk.inj (Except.ok.inj hstep)
      rcases skipComment_append rest more with hclosed | ⟨hopen, hgoesOn⟩
      · rw [hgoes (congrArg (fun rest => Except.ok (s, rest)) hclosed)]
        exact ih.imp_right (And.imp_left hback)
      · have hcomment : step lenient s (.symbol '(') (rest ++ more) = .ok (s, skipComment more) :=
          congrArg (fun rest => Except.ok (s, rest)) hgoesOn
        refine .inr ⟨List.mem_cons_self, ?_⟩
        rw [hopen, run_nil, List.cons_append, run_cons_of_ok hcomment]
        rfl
    · have hstep' : step lenient s token (rest ++ more) = .ok (s', rest' ++ more) := by
        rw [step_append hmore lenient s rest htoken, hstep]
        rfl
      rw [hgoes hstep']
      exact ih.imp_right (And.imp_left hback)

end Scan

/-! ## 4. Texts -/

theorem not_mem_tokens_of_not_mem {opening : Bool} {text : List Char} {c : Char} (h : c ∉ text) :
    .symbol c ∉ tokens opening text := by
  intro hmem
  have hspelling : c ∈ (tokens opening text).flatMap Token.spelling :=
    List.mem_flatMap.mpr ⟨.symbol c, hmem, List.mem_singleton.mpr rfl⟩
  rw [flatMap_spelling_tokens] at hspelling
  exact h (List.mem_filter.mp hspelling).1

/-- The tokens of a text stand apart if it begins with no blank, digit, colon or point. -/
theorem standApart_tokens {opening : Bool} {c : Char} {rest : List Char}
    (hblank : isBlank c = false) (hdigit : c.isDigit = false) (hcolon : c ≠ ':')
    (hpoint : c ≠ '.') :
    StandApart (tokens opening (c :: rest)) := by
  intro token htoken
  rw [tokens, if_neg (by simp [hblank])] at htoken
  split at htoken
  · obtain rfl := Option.some.inj htoken
    rfl
  rw [if_neg (by simp [hdigit])] at htoken
  split at htoken
  · obtain rfl := Option.some.inj htoken
    rfl
  · obtain rfl := Option.some.inj htoken
    exact Token.joins_symbol hcolon hpoint

/-- **The scan of two texts with a blank between them** goes on where the scan of the first ended,
as long as the second stands apart and the first has no comment. -/
theorem run_tokens_append {c : Char} (hc : isBlank c = true) (lenient : Bool)
    {text more : List Char} (hopen : '(' ∉ text) (hmore : StandApart (tokens true more)) :
    Scan.run lenient .initial (tokens true (text ++ c :: more)) =
      Scan.run lenient .initial (tokens true text) >>= fun s =>
        Scan.run lenient s (tokens true more) := by
  rw [tokens_append hc]
  rcases Scan.run_append hmore lenient .initial (tokens true text) with h | ⟨hmem, -⟩
  · exact h
  · exact absurd hmem (not_mem_tokens_of_not_mem hopen)

end DateText
end Interchange
