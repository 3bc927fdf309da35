/-
# Where tokens stand in a text

The tokens of a text stand in it one after the other, with nothing but blanks between them.  Where a
token stands says all about it: a number and a word go on to both sides as far as there are digits
or letters, a minus sign opens a field only at the start or after a blank and only before a digit,
and everything else is a symbol.  There is one way to cut a text like that, and `tokens` finds it.

A minus sign that opens a field therefore has a number right behind it.  No step of the scan takes
one of the two and leaves the other, so that wherever the scan has come to with a sign pending, the
number of the sign is next.

* `Cuts`: a text cut into tokens, each in its place;
* `cuts_iff`: `tokens` is the only way to cut a text;
* `Scan.Reaches`: the states that a scan goes through;
* `Scan.Signed.reaches`: a pending sign has its number next;
* `tokens_stand`: all that the tokens of a text satisfy.
-/
import Interchange.Proofs.DateText.Changes

namespace Interchange
namespace DateText

/-! ## 1. Places -/

/-- Whether a field may open behind a text: at the start, or after a blank. -/
def opensField (before : List Char) : Bool := before.getLast?.all isBlank

/-- What a token is, by its place between what is before it and what is after it. -/
inductive Token.Stands (before after : List Char) : Token → Prop where
  /-- A number is a run of digits that goes on to neither side. -/
  | number {digits : List Char} : IsDigits digits → (∀ c ∈ before.getLast?, c.isDigit = false) →
      (∀ c ∈ after.head?, c.isDigit = false) → Stands before after (.number digits)
  /-- A word is a run of letters that goes on to neither side. -/
  | word {letters : List Char} : IsLetters letters → (∀ c ∈ before.getLast?, c.isAlpha = false) →
      (∀ c ∈ after.head?, c.isAlpha = false) → Stands before after (.word letters)
  /-- A symbol is any other character that is not blank, unless it is the sign of a field. -/
  | symbol {c : Char} : isBlank c = false → c.isDigit = false → c.isAlpha = false →
      ¬(c = '-' ∧ opensField before = true ∧ startsWithDigit after = true) →
      Stands before after (.symbol c)
  /-- The sign of a field is where a field may open, and has a digit right behind it. -/
  | leadingMinus : opensField before = true → startsWithDigit after = true →
      Stands before after .leadingMinus

/-- A text behind another one, cut into tokens with blanks between them, each token in its place.
It says what a right way to cut is, without an order of tests as `tokens` has it. -/
inductive Cuts : List Char → List Char → List Token → Prop where
  | done {before : List Char} : Cuts before [] []
  | blank {before rest : List Char} {c : Char} {toks : List Token} : isBlank c = true →
      Cuts (before ++ [c]) rest toks → Cuts before (c :: rest) toks
  | token {before rest : List Char} {token : Token} {toks : List Token} :
      token.Stands before rest → Cuts (before ++ token.spelling) rest toks →
      Cuts before (token.spelling ++ rest) (token :: toks)

/-! ## 2. The one way to cut a text -/

/-- No run of digits and no run of letters goes on from one text to the next. -/
def Apart (before after : List Char) : Prop :=
  ∀ c ∈ before.getLast?, ∀ d ∈ after.head?,
    (c.isDigit = true → d.isDigit = false) ∧ (c.isAlpha = true → d.isAlpha = false)

theorem opensField_append (before : List Char) {run : List Char} (h : run ≠ []) :
    opensField (before ++ run) = opensField run := by
  rw [opensField, List.getLast?_append_of_ne_nil before h, opensField]

theorem apart_append (before : List Char) {run after : List Char} (h : run ≠ []) :
    Apart (before ++ run) after ↔ Apart run after := by
  rw [Apart, List.getLast?_append_of_ne_nil before h, Apart]

theorem opensField_of_not_blank {run : List Char} (h : run ≠ [])
    (hrun : ∀ c ∈ run, isBlank c = false) : opensField run = false := by
  rw [opensField, List.getLast?_eq_some_getLast h]
  exact hrun _ (List.getLast_mem h)

theorem apart_of_isDigits {digits after : List Char} (h : IsDigits digits)
    (hafter : ∀ c ∈ after.head?, c.isDigit = false) : Apart digits after := by
  intro c hc d hd
  have hdigit : c.isDigit = true := h.2 c (List.mem_of_getLast? hc)
  refine ⟨fun _ => hafter d hd, fun halpha => ?_⟩
  rw [not_isDigit_of_isAlpha halpha] at hdigit
  contradiction

theorem apart_of_isLetters {letters after : List Char} (h : IsLetters letters)
    (hafter : ∀ c ∈ after.head?, c.isAlpha = false) : Apart letters after := by
  intro c hc d hd
  have halpha : c.isAlpha = true := h.2 c (List.mem_of_getLast? hc)
  refine ⟨fun hdigit => ?_, fun _ => hafter d hd⟩
  rw [not_isDigit_of_isAlpha halpha] at hdigit
  contradiction

theorem apart_singleton {c : Char} (hdigit : c.isDigit = false) (halpha : c.isAlpha = false)
    (after : List Char) : Apart [c] after := by
  intro d hd e _
  obtain rfl : c = d := Option.some.inj hd
  simp [hdigit, halpha]

theorem Apart.before {before rest : List Char} {c : Char} (h : Apart before (c :: rest)) :
    (c.isDigit = true → ∀ d ∈ before.getLast?, d.isDigit = false) ∧
      (c.isAlpha = true → ∀ d ∈ before.getLast?, d.isAlpha = false) := by
  refine ⟨fun hc d hd => ?_, fun hc d hd => ?_⟩
  · by_contra hdigit
    have hnot := (h d hd c rfl).1 (Bool.not_eq_false _ |>.mp hdigit)
    rw [hc] at hnot
    contradiction
  · by_contra halpha
    have hnot := (h d hd c rfl).2 (Bool.not_eq_false _ |>.mp halpha)
    rw [hc] at hnot
    contradiction

/-- What is left behind the longest run of a class begins with no character of the class. -/
theorem head?_dropWhile {p : Char → Bool} (text : List Char) :
    ∀ c ∈ (text.dropWhile p).head?, p c = false := by
  intro c hc
  have hnot := List.head?_dropWhile_not p text
  rw [Option.mem_def.mp hc] at hnot
  exact hnot

/-- **A text falls into its tokens**, each in its place. -/
theorem cuts_tokens {opening : Bool} {before text : List Char} (hopen : opening = opensField before)
    (happart : Apart before text) : Cuts before text (tokens opening text) := by
  fun_induction tokens opening text generalizing before with
  | case1 => exact .done
  | case2 opening c rest h ih =>
    refine .blank h (ih ?_ ?_)
    · rw [opensField_append before (List.cons_ne_nil c [])]
      exact h.symm
    · rw [apart_append before (List.cons_ne_nil c [])]
      exact apart_singleton (not_isDigit_of_isBlank h) (not_isAlpha_of_isBlank h) rest
  | case3 opening c rest h hm ih =>
    obtain ⟨rfl, rfl, hdigit⟩ := hm
    refine .token (.leadingMinus hopen.symm hdigit) (ih ?_ ?_)
    · rw [Token.spelling, opensField_append before (List.cons_ne_nil _ [])]
      rfl
    · rw [Token.spelling, apart_append before (List.cons_ne_nil _ [])]
      exact apart_singleton rfl rfl rest
  | case4 opening c rest h hm hd ih =>
    have hrun : IsDigits (c :: rest.takeWhile Char.isDigit) :=
      ⟨List.cons_ne_nil _ _, forall_mem_cons_takeWhile hd rest⟩
    have hafter := head?_dropWhile (p := Char.isDigit) rest
    have hinside : false = opensField (before ++ c :: rest.takeWhile Char.isDigit) := by
      rw [opensField_append before hrun.1, opensField_of_not_blank hrun.1 fun d hd =>
        not_isBlank_of_isDigit (hrun.2 d hd)]
    have hcut := ih hinside ((apart_append before hrun.1).mpr (apart_of_isDigits hrun hafter))
    have htoken := Cuts.token (.number hrun (happart.before.1 hd) hafter) hcut
    rwa [Token.spelling, List.cons_append, List.takeWhile_append_dropWhile] at htoken
  | case5 opening c rest h hm hd ha ih =>
    have hrun : IsLetters (c :: rest.takeWhile Char.isAlpha) :=
      ⟨List.cons_ne_nil _ _, forall_mem_cons_takeWhile ha rest⟩
    have hafter := head?_dropWhile (p := Char.isAlpha) rest
    have hinside : false = opensField (before ++ c :: rest.takeWhile Char.isAlpha) := by
      rw [opensField_append before hrun.1, opensField_of_not_blank hrun.1 fun d hd =>
        not_isBlank_of_isAlpha (hrun.2 d hd)]
    have hcut := ih hinside ((apart_append before hrun.1).mpr (apart_of_isLetters hrun hafter))
    have htoken := Cuts.token (.word hrun (happart.before.2 ha) hafter) hcut
    rwa [Token.spelling, List.cons_append, List.takeWhile_append_dropWhile] at htoken
  | case6 opening c rest h hm hd ha ih =>
    have hblank : isBlank c = false := Bool.not_eq_true _ |>.mp h
    have hdigit : c.isDigit = false := Bool.not_eq_true _ |>.mp hd
    have halpha : c.isAlpha = false := Bool.not_eq_true _ |>.mp ha
    have hstands : Token.Stands before rest (.symbol c) := by
      refine .symbol hblank hdigit halpha ?_
      rw [← hopen]
      exact hm
    refine .token hstands (ih ?_ ?_)
    · rw [Token.spelling, opensField_append before (List.cons_ne_nil c [])]
      exact hblank.symm
    · rw [Token.spelling, apart_append before (List.cons_ne_nil c [])]
      exact apart_singleton hdigit halpha rest

/-- **A text cut into tokens in their places is cut into its tokens.**  The place of a token decides
which test of `tokens` it passes first. -/
theorem Cuts.eq_tokens {before text : List Char} {toks : List Token} (h : Cuts before text toks) :
    toks = tokens (opensField before) text := by
  induction h with
  | done => rw [tokens_nil]
  | @blank before rest c toks hc _ ih =>
    rw [ih, opensField_append before (List.cons_ne_nil c []), tokens_blank hc]
    exact congrArg (tokens · rest) hc
  | @token before rest token toks hstands _ ih =>
    cases hstands with
    | @number digits hdigits _ hafter =>
      have hinside : opensField (before ++ digits) = false := by
        rw [opensField_append before hdigits.1, opensField_of_not_blank hdigits.1 fun d hd =>
          not_isBlank_of_isDigit (hdigits.2 d hd)]
      have hrest : startsWithDigit rest = false := by
        cases rest with
        | nil => rfl
        | cons c rest => exact hafter c rfl
      rw [Token.spelling, tokens_number hdigits hrest, ih, Token.spelling, hinside]
    | @word letters hletters _ hafter =>
      have hinside : opensField (before ++ letters) = false := by
        rw [opensField_append before hletters.1, opensField_of_not_blank hletters.1 fun d hd =>
          not_isBlank_of_isAlpha (hletters.2 d hd)]
      have hrest : startsWithLetter rest = false := by
        cases rest with
        | nil => rfl
        | cons c rest => exact hafter c rfl
      rw [Token.spelling, tokens_word hletters hrest, ih, Token.spelling, hinside]
    | @symbol c hblank hdigit halpha hsign =>
      have hinside : opensField (before ++ [c]) = false := by
        rw [opensField_append before (List.cons_ne_nil c [])]
        exact hblank
      have hminus : c = '-' → opensField before = true → startsWithDigit rest = false :=
        fun hc hopen => Bool.not_eq_true _ |>.mp fun hd => hsign ⟨hc, hopen, hd⟩
      rw [Token.spelling, List.singleton_append, tokens_symbol hblank hdigit halpha hminus, ih,
        Token.spelling, hinside]
    | leadingMinus hopen hdigit =>
      have hinside : opensField (before ++ ['-']) = false := by
        rw [opensField_append before (List.cons_ne_nil _ [])]
        rfl
      rw [Token.spelling, List.singleton_append, hopen, tokens_leadingMinus hdigit, ih,
        Token.spelling, hinside]

/-- **There is one way to cut a text into tokens in their places**, and it is that of `tokenize`. -/
theorem cuts_iff {text : List Char} {toks : List Token} :
    Cuts [] text toks ↔ toks = tokens true text := by
  constructor
  · exact Cuts.eq_tokens
  · rintro rfl
    exact cuts_tokens rfl fun c hc => absurd hc (Option.not_mem_none c)

/-! ## 3. One token of a text -/

theorem Token.Stands.not_blank {before after : List Char} {token : Token}
    (h : token.Stands before after) : ∀ c ∈ token.spelling, isBlank c = false := by
  intro c hc
  cases h with
  | number hdigits => exact not_isBlank_of_isDigit (hdigits.2 c hc)
  | word hletters => exact not_isBlank_of_isAlpha (hletters.2 c hc)
  | symbol hblank =>
    obtain rfl := List.mem_singleton.mp hc
    exact hblank
  | leadingMinus =>
    obtain rfl := List.mem_singleton.mp hc
    rfl

/-- **Each token of a text stands in its place**: the tokens before it are those of what is before
it, and the text is cut on behind it. -/
theorem Cuts.split {before text : List Char} {past : List Token} {token : Token} {rest : List Token}
    (h : Cuts before text (past ++ token :: rest)) :
    ∃ left right, text = left ++ (token.spelling ++ right) ∧
      past.flatMap Token.spelling = left.filter (fun c => !isBlank c) ∧
      token.Stands (before ++ left) right ∧
      Cuts (before ++ left ++ token.spelling) right rest := by
  generalize htoks : past ++ token :: rest = toks at h
  induction h generalizing past with
  | done => exact absurd htoks (by simp)
  | @blank before text c toks hc _ ih =>
    obtain ⟨left, right, rfl, hpast, hstands, hrest⟩ := ih htoks
    rw [List.append_assoc before [c] left, List.singleton_append] at hstands hrest
    exact ⟨c :: left, right, rfl, by rw [hpast, List.filter_cons_of_neg (by simp [hc])], hstands,
      hrest⟩
  | @token before text first toks hfirst hcuts ih =>
    cases past with
    | nil =>
      obtain ⟨rfl, rfl⟩ := List.cons.inj htoks
      refine ⟨[], text, rfl, rfl, ?_, ?_⟩
      · rwa [List.append_nil]
      · rwa [List.append_nil]
    | cons other past =>
      obtain ⟨rfl, htail⟩ := List.cons.inj htoks
      obtain ⟨left, right, rfl, hpast, hstands, hrest⟩ := ih htail
      rw [List.append_assoc before other.spelling left] at hstands hrest
      refine ⟨other.spelling ++ left, right, by rw [List.append_assoc], ?_, hstands, hrest⟩
      have hfull : other.spelling.filter (fun c => !isBlank c) = other.spelling :=
        List.filter_eq_self.mpr fun c hc => by simp [hfirst.not_blank c hc]
      rw [List.flatMap_cons, hpast, List.filter_append, hfull]

theorem Cuts.number_of_startsWithDigit {before text : List Char} {toks : List Token}
    (h : Cuts before text toks) (hdigit : startsWithDigit text = true) :
    ∃ digits rest, toks = .number digits :: rest := by
  cases h with
  | done => contradiction
  | @blank _ rest c _ hc =>
    have hnot : c.isDigit = false := not_isDigit_of_isBlank hc
    rw [startsWithDigit, hnot] at hdigit
    contradiction
  | @token _ rest token toks hstands =>
    cases hstands with
    | @number digits => exact ⟨digits, toks, rfl⟩
    | @word letters hletters =>
      obtain ⟨c, more, rfl⟩ := List.exists_cons_of_ne_nil hletters.1
      have hnot : c.isDigit = false := not_isDigit_of_isAlpha (hletters.2 c List.mem_cons_self)
      rw [Token.spelling, List.cons_append, startsWithDigit, hnot] at hdigit
      contradiction
    | @symbol c _ hnot =>
      rw [Token.spelling, List.singleton_append, startsWithDigit, hnot] at hdigit
      contradiction
    | leadingMinus => contradiction

/-- **The sign of a field has its number behind it.** -/
theorem Cuts.number_of_leadingMinus {before text : List Char} {past rest : List Token}
    (h : Cuts before text (past ++ .leadingMinus :: rest)) :
    ∃ digits rest', rest = .number digits :: rest' := by
  obtain ⟨left, right, -, -, hstands, hcuts⟩ := h.split
  cases hstands with
  | leadingMinus _ hdigit => exact hcuts.number_of_startsWithDigit hdigit

/-! ## 4. The sign of a field in the scan -/

namespace Scan

/-- The states that a scan goes through, with the tokens that are left to them.  A scan that stops
with an error has gone through states too, so this is not said by `run`. -/
inductive Reaches (lenient : Bool) : Scan → List Token → Scan → List Token → Prop where
  | refl {s : Scan} {toks : List Token} : Reaches lenient s toks s toks
  | step {s s' s'' : Scan} {token : Token} {rest rest' toks : List Token} :
      step lenient s token rest = .ok (s', rest') → Reaches lenient s' rest' s'' toks →
      Reaches lenient s (token :: rest) s'' toks

variable {lenient : Bool} {s s' : Scan} {rest rest' : List Token}

/-- **A scan goes on from every state that it reaches**, so the end of the whole is the end from
there. -/
theorem Reaches.run_eq {toks : List Token} (h : Reaches lenient s toks s' rest') :
    run lenient s toks = run lenient s' rest' := by
  induction h with
  | refl => rfl
  | step hstep _ ih => rw [run_cons_of_ok hstep, ih]

/-- **A scan ends in a state exactly if it reaches it** with no token left. -/
theorem run_eq_ok_iff {toks : List Token} :
    run lenient s toks = .ok s' ↔ Reaches lenient s toks s' [] := by
  constructor
  · intro h
    fun_induction run lenient s toks with
    | case1 s =>
      obtain rfl := Except.ok.inj h
      exact .refl
    | case2 s token rest e hstep => contradiction
    | case3 s token rest t rest' hstep ih => exact .step hstep (ih h)
  · intro h
    rw [h.run_eq, run_nil]

/-- Every sign of a field has its number next: the pending one, and those among the tokens that are
left. -/
structure Signed (s : Scan) (toks : List Token) : Prop where
  pending : s.minusPending = true → ∃ digits rest, toks = .number digits :: rest
  leading : ∀ past rest, toks = past ++ .leadingMinus :: rest →
    ∃ digits rest', rest = .number digits :: rest'

/-- **A step leaves every sign with its number next.**  A step that could take the number takes the
sign with it, and one that looks ahead passes a sign over or reads its number. -/
theorem Signed.step {token : Token} (h : s.Signed (token :: rest)) (htoken : token.Uniform)
    (hstep : step lenient s token rest = .ok (s', rest')) : s'.Signed rest' := by
  constructor
  · intro hpending
    rcases (step_change htoken hstep).minusPending hpending with ⟨rfl, rfl⟩ | ⟨hbefore, hother⟩
    · exact h.leading [] rest' rfl
    · -- the sign was pending before, so that its number is what the step has read
      obtain ⟨digits, _, htoken⟩ := h.pending hbefore
      exact absurd (List.cons.inj htoken).1 (hother digits)
  · rintro past after rfl
    obtain ⟨read, rfl⟩ := suffix_step hstep
    exact h.leading (token :: (read ++ past)) after (by simp)

/-- **Wherever a scan comes to, every sign has its number next.** -/
theorem Signed.reaches {toks : List Token} (h : s.Signed toks)
    (htoks : ∀ token ∈ toks, token.Uniform) (hreaches : Reaches lenient s toks s' rest') :
    s'.Signed rest' := by
  induction hreaches with
  | refl => exact h
  | step hstep _ ih =>
    obtain ⟨htoken, hrest⟩ := List.forall_mem_cons.mp htoks
    exact ih (h.step htoken hstep) fun token ht => hrest token ((suffix_step hstep).mem ht)

/-- The scan of a text begins so. -/
theorem signed_initial (text : List Char) : initial.Signed (tokens true text) where
  pending h := absurd h (by decide)
  leading _ _ h := (cuts_iff.mpr h.symm).number_of_leadingMinus

end Scan

/-! ## 5. The tokens of a text -/

/-- **The tokens of a text lose nothing and invent nothing.**  Their spellings are the text without
its blanks, and there is no other way to cut it.  Each of them stands in its place: a number or a
word goes on to both sides as far as its class goes, and the sign of a field is at the start or
after a blank, with a number right behind it.  The scan never comes to anything but that number
while the sign is pending, and never ends with a sign. -/
theorem tokens_stand (text : List Char) :
    (tokens true text).flatMap Token.spelling = text.filter (fun c => !isBlank c) ∧
      (∀ toks, Cuts [] text toks ↔ toks = tokens true text) ∧
      (∀ past token rest, tokens true text = past ++ token :: rest →
        (∃ left right, text = left ++ (token.spelling ++ right) ∧
          past.flatMap Token.spelling = left.filter (fun c => !isBlank c) ∧
          token.Stands left right) ∧
        (token = .leadingMinus → ∃ digits rest', rest = .number digits :: rest')) ∧
      ∀ lenient s,
        (∀ toks, Scan.Reaches lenient .initial (tokens true text) s toks →
          s.minusPending = true → ∃ digits rest, toks = .number digits :: rest) ∧
        (Scan.run lenient .initial (tokens true text) = .ok s → s.minusPending = false) := by
  have hsigned := Scan.signed_initial text
  refine ⟨flatMap_spelling_tokens true text, fun _ => cuts_iff,
    fun past token rest htoks => ⟨?_, ?_⟩, fun lenient s => ⟨?_, ?_⟩⟩
  · obtain ⟨left, right, htext, hpast, hstands, -⟩ := (cuts_iff.mpr htoks.symm).split
    exact ⟨left, right, htext, hpast, hstands⟩
  · rintro rfl
    exact hsigned.leading past rest htoks
  · intro toks hreaches
    exact (hsigned.reaches uniform_of_mem_tokens hreaches).pending
  · intro hrun
    by_contra hpending
    have hend := hsigned.reaches uniform_of_mem_tokens (Scan.run_eq_ok_iff.mp hrun)
    obtain ⟨_, _, hnil⟩ := hend.pending (Bool.not_eq_false _ |>.mp hpending)
    contradiction

/-- The signs of two fields, the second of them behind a blank of three bytes, and two dashes that
are no signs. -/
theorem tokens_stand_fields :
    let text := "-44é-3 -\u3000-15".toList
    let past : List Token := [.leadingMinus, .number "44".toList, .symbol 'é', .symbol '-',
      .number "3".toList, .symbol '-']
    tokens true text = past ++ [.leadingMinus, .number "15".toList] ∧
      (∃ left right, text = left ++ ('-' :: right) ∧
        left.filter (fun c => !isBlank c) = "-44é-3-".toList ∧
        Token.Stands left right .leadingMinus) ∧
      ∀ toks, Cuts [] text toks ↔ toks = past ++ [.leadingMinus, .number "15".toList] := by
  intro text past
  have htokens : tokens true text = past ++ [.leadingMinus, .number "15".toList] := by
    decide +kernel
  obtain ⟨-, hcuts, hplaces, -⟩ := tokens_stand text
  obtain ⟨⟨left, right, htext, hpast, hstands⟩, -⟩ := hplaces past _ _ htokens
  rw [htokens] at hcuts
  exact ⟨htokens, ⟨left, right, htext, hpast.symm, hstands⟩, hcuts⟩

end DateText
end Interchange
