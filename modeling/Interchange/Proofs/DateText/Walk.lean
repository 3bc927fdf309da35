/-
# Walking over the tokens without a fault

The machine goes from index to index where the scan takes tokens off a list.  The two are in step:
with the tokens from an index on left to the scan, each function gives the same on both sides, and
the machine goes on at the index behind which the tokens are that the scan leaves.  Since that index
is further on, the walk ends.

* `Simulates`: what one side gives is what the other one gives;
* `numberAt_cases`, `numberBehind_cases`: looking ahead by index is looking at the next tokens;
* `step_simulates`: a step;
* `run_eq`: the whole walk.
-/
import Interchange.Proofs.DateText.Operations

namespace Interchange
namespace DateText

open Buffer Calendar

namespace Machine

/-! ## 1. Indexes -/

variable {s : Scan} {toks rest : List Token} {i : Nat}

theorem drop_add (h : toks.drop i = rest) (k : Nat) : toks.drop (i + k) = rest.drop k := by
  rw [← h, List.drop_drop]

theorem getElem?_add (h : toks.drop i = rest) (k : Nat) : toks[i + k]? = rest[k]? := by
  rw [← h, List.getElem?_drop]

theorem tokenAt_eq {token : Token} (h : toks.drop i = token :: rest) :
    tokenAt toks i = .ok token := by
  have hget : toks[i]? = some token := getElem?_add h 0
  rw [tokenAt, hget]

theorem exists_drop_eq_cons (h : i < toks.length) : ∃ token rest, toks.drop i = token :: rest :=
  ⟨_, _, List.drop_eq_getElem_cons h⟩

theorem numberAt_cases (h : toks.drop i = rest) :
    (numberAt toks i = none ∧ ∀ digits rest', rest ≠ .number digits :: rest') ∨
      ∃ digits rest', rest = .number digits :: rest' ∧ numberAt toks i = some digits ∧
        toks.drop (i + 1) = rest' := by
  have hget : toks[i]? = rest[0]? := getElem?_add h 0
  have hdrop : toks.drop (i + 1) = rest.drop 1 := drop_add h 1
  rw [numberAt, hget, hdrop]
  cases rest with
  | nil => simp
  | cons token rest => cases token <;> simp

theorem numberBehind_cases (c : Char) (h : toks.drop i = rest) :
    (numberBehind toks c i = none ∧
        ∀ digits rest', rest ≠ .symbol c :: .number digits :: rest') ∨
      ∃ digits rest', rest = .symbol c :: .number digits :: rest' ∧
        numberBehind toks c i = some digits ∧ toks.drop (i + 2) = rest' := by
  have hget : toks[i]? = rest[0]? := getElem?_add h 0
  rw [numberBehind, hget]
  by_cases hc : rest[0]? = some (.symbol c)
  · rw [if_pos hc]
    obtain ⟨tail, rfl⟩ : ∃ tail, rest = .symbol c :: tail := by
      rw [← List.head?_eq_getElem?] at hc
      exact List.head?_eq_some_iff.mp hc
    rcases numberAt_cases (drop_add h 1) with ⟨hnone, hne⟩ | ⟨digits, rest', htail, hsome, hrest⟩
    · exact .inl ⟨hnone, fun digits rest' heq => hne digits rest' (List.cons.inj heq).2⟩
    · exact .inr ⟨digits, rest', congrArg _ htail, hsome, hrest⟩
  · rw [if_neg hc]
    refine .inl ⟨rfl, ?_⟩
    rintro digits rest' rfl
    exact hc rfl

/-- What the machine gives for the token of an index is what the scan gives for it: the same error,
or the same state at an index further on, with the tokens behind that index left. -/
inductive Simulates (toks : List Token) (i : Nat) :
    Except Stop (Scan × Nat) → Except Error (Scan × List Token) → Prop where
  | ok {s : Scan} {i' : Nat} {rest : List Token} : i < i' → toks.drop i' = rest →
      Simulates toks i (.ok (s, i')) (.ok (s, rest))
  | error {e : Error} : Simulates toks i (.error (.rejected e)) (.error e)

theorem Simulates.ne_fault {x : Except Stop (Scan × Nat)} {y : Except Error (Scan × List Token)}
    (h : Simulates toks i x y) (f : Fault) : x ≠ .error (.fault f) := by
  cases h with
  | ok => exact fun heq => nomatch heq
  | error => exact fun heq => nomatch heq

theorem Simulates.lt {s' : Scan} {i' : Nat} {y : Except Error (Scan × List Token)}
    (h : Simulates toks i (.ok (s', i')) y) : i < i' := by
  cases h with
  | ok hlt => exact hlt

theorem Simulates.map {i' : Nat} (hi : i < i') (hrest : toks.drop i' = rest)
    (x : Except Error Scan) : Simulates toks i ((lift x).map (·, i')) (x.map (·, rest)) := by
  cases x with
  | ok s => exact .ok hi hrest
  | error e => exact .error

/-! ## 2. Clocks and numbers -/

variable {digits : List Char}

/-- **A clock is read without a fault.** -/
theorem readClock_simulates {hour : List Char} (hhour : IsDigits hour)
    (htoks : ∀ token ∈ rest, token.Uniform)
    (h : toks.drop i = .number hour :: .symbol ':' :: rest) :
    Simulates toks i (readClock s toks i) (s.readClock hour rest) := by
  have hrest : toks.drop (i + 2) = rest := drop_add h 2
  have hfirst : numberAt toks i = some hour := by
    have hget : toks[i]? = some (.number hour) := getElem?_add h 0
    rw [numberAt, hget]
  unfold readClock
  by_cases hclock : s.clock.isSome = true
  · unfold Scan.readClock
    rw [if_pos hclock, if_pos hclock]
    exact .error
  rw [if_neg hclock, hfirst, Option.getD_some, number_eq hhour]
  replace hclock : s.clock = none := Option.not_isSome_iff_eq_none.mp hclock
  rcases numberAt_cases hrest with ⟨hminute, hne⟩ | ⟨minute, rest, rfl, hminute, hrest⟩
  · rw [hminute, Scan.readClock_of_ne hclock hne]
    exact .error
  have hm : IsDigits minute := htoks (.number minute) (by simp)
  rw [hminute]
  dsimp only
  rw [number_eq hm]
  rcases numberBehind_cases ':' hrest with ⟨hsecond, hne⟩ | ⟨second, rest, rfl, hsecond, hrest⟩
  · rw [hsecond, Scan.readClock_minute_of_ne hclock hne]
    exact .ok (by omega) hrest
  have hs : IsDigits second := htoks (.number second) (by simp)
  rw [hsecond]
  dsimp only
  rw [number_eq hs]
  rcases numberBehind_cases '.' hrest with ⟨hpoint, hne⟩ | ⟨fraction, rest, rfl, hpoint, hrest⟩
  · rw [hpoint, Scan.readClock_second_of_ne hclock hne]
    exact .ok (by omega) hrest
  have hf : IsDigits fraction := htoks (.number fraction) (by simp)
  rw [hpoint]
  dsimp only
  rw [fractionMillis_eq hf, ok_bind, Scan.readClock_fraction hclock]
  exact .ok (by omega) hrest

/-- **A number is read without a fault.** -/
theorem readNumber_simulates (hd : IsDigits digits) (htoks : ∀ token ∈ rest, token.Uniform)
    (h : toks.drop i = .number digits :: rest) :
    Simulates toks i (readNumber s toks i digits) (s.readNumber digits rest) := by
  have hrest : toks.drop (i + 1) = rest := drop_add h 1
  have hget : toks[i + 1]? = rest[0]? := getElem?_add hrest 0
  have hpush (u : Scan) (negative : Bool) :
      Simulates toks i ((pushNumber u digits negative).map (·, i + 1))
        ((u.pushNumber digits negative).map (·, rest)) := by
    rw [pushNumber_eq hd]
    exact .map (Nat.lt_succ_self i) hrest _
  simp only [readNumber, hget, byteLength_digits hd.2, compactYearWidth_eq, ok_bind]
  by_cases hcolon : ∃ after, rest = .symbol ':' :: after
  · obtain ⟨after, rfl⟩ := hcolon
    simp only [List.getElem?_cons_zero, if_true, Scan.readNumber]
    split
    · exact .error
    · exact readClock_simulates hd (fun token ht => htoks token (.tail _ ht)) h
  · have hnone : ∀ after, rest = .symbol ':' :: after → False := fun after h => hcolon ⟨after, h⟩
    rw [if_neg]
    · -- both walks are in the branch where no colon follows
      simp only [Scan.readNumber]
      cases hwidth : Scan.compactYearWidth digits.length with
      | none => exact hpush _ _
      | some yearWidth =>
        dsimp only
        split
        · rw [readCompact_eq hd hwidth]
          exact .ok (Nat.lt_succ_self i) hrest
        · exact hpush _ _
    · intro hfirst
      rw [← List.head?_eq_getElem?] at hfirst
      exact hcolon (List.head?_eq_some_iff.mp hfirst)

/-! ## 3. Zone offsets -/

theorem setOffset_eq (direction : Scan.Direction) (hours minutes : Nat) :
    setOffset s direction hours minutes = lift (s.setOffset direction hours minutes) := by
  have hlimit : (24 * 60 : Int) ≤ countLimit := by decide
  unfold setOffset Scan.setOffset
  split
  · rfl
  split
  · rfl
  rw [fit_of_mem (by omega), ok_bind, fit_of_mem (by omega), ok_bind]
  cases direction with
  | ahead => rfl
  | behind =>
    rw [if_pos rfl, fit_of_mem (by omega), ok_bind]
    rfl

/-- **A zone offset is read without a fault.** -/
theorem readOffset_simulates {direction : Scan.Direction} {token : Token}
    (htoks : ∀ token ∈ rest, token.Uniform) (h : toks.drop i = token :: rest) :
    Simulates toks i (readOffset s direction toks i) (s.readOffset direction rest) := by
  have hrest : toks.drop (i + 1) = rest := drop_add h 1
  unfold readOffset
  rcases numberAt_cases hrest with ⟨hnumber, hne⟩ | ⟨digits, rest, rfl, hnumber, hrest⟩
  · have hmissing : ∀ digits rest', rest = .number digits :: rest' → False := hne
    simp only [hnumber, Scan.readOffset]
    exact .error
  have hd : IsDigits digits := htoks (.number digits) (by simp)
  rw [hnumber]
  simp only [byteLength_digits hd.2, number_eq hd, setOffset_eq, Scan.readOffset]
  split
  · next hfour =>
    have hhours : sliceField digits 0 2 = Scan.slice digits 0 2 :=
      sliceField_eq hd 0 2 (by decide) (by decide) (by omega)
    have hminutes : sliceField digits 2 4 = Scan.slice digits 2 2 :=
      sliceField_eq hd 2 2 (by decide) (by decide) (by omega)
    rw [hhours, hminutes]
    exact .map (by omega) hrest _
  split
  · rcases numberBehind_cases ':' hrest with ⟨hcolon, hne⟩ | ⟨minutes, rest, rfl, hcolon, hrest⟩
    · have hnone : ∀ minutes rest', rest = .symbol ':' :: .number minutes :: rest' → False := hne
      simp only [hcolon]
      exact .map (by omega) hrest _
    · have hm : IsDigits minutes := htoks (.number minutes) (by simp)
      simp only [hcolon, number_eq hm]
      exact .map (by omega) hrest _
  · exact .error

/-! ## 4. Words and comments -/

theorem nameIndex_eq (names : List (List Char)) {word : List Char} (h : IsLetters word) :
    nameIndex names word = .ok (Scan.nameIndex names word) := by
  have hplain : IsPlain word := isPlain_of_isAlpha h.2
  unfold nameIndex Scan.nameIndex
  rw [byteLength_of_isPlain hplain]
  split
  · rfl
  · next hlong =>
    rw [sliceTo, splitAt?_of_isPlain hplain, if_pos (by omega)]
    rfl

/-- **A word is read without a fault.** -/
theorem readWord_eq {word : List Char} (h : IsLetters word) :
    readWord s word = lift (s.readWord word) := by
  simp only [readWord, Scan.readWord, nameIndex_eq _ h, ok_bind]
  split
  · rfl
  split
  · rfl
  split
  · rfl
  split
  · rfl
  cases hmonth : Scan.nameIndex monthNames word with
  | none =>
    dsimp only
    split <;> rfl
  | some index =>
    have hindex : index < monthNames.length := by
      unfold Scan.nameIndex at hmonth
      split at hmonth
      · contradiction
      · exact (List.findIdx?_eq_some_iff_getElem.mp hmonth).1
    have hlimit : monthNames.length < countLimit := by decide
    dsimp only
    rw [fitNat_of_le (by omega)]
    rfl

/-- **The end of a comment is found without a fault.** -/
theorem exists_commentEnd (toks : List Token) (i : Nat) :
    ∃ j, commentEnd toks i = .ok j ∧ i ≤ j ∧
      toks.drop (j + 1) = Scan.skipComment (toks.drop i) := by
  fun_induction commentEnd toks i with
  | case1 i hi ih =>
    obtain ⟨token, rest, h⟩ := exists_drop_eq_cons hi
    have hrest : toks.drop (i + 1) = rest := drop_add h 1
    rw [tokenAt_eq h, ok_bind, h]
    by_cases hclose : token = .symbol ')'
    · rw [if_pos hclose, hclose]
      exact ⟨i, rfl, le_rfl, hrest⟩
    · obtain ⟨j, hj, hle, hdrop⟩ := ih
      have hskip : Scan.skipComment (token :: rest) = Scan.skipComment rest := by
        rw [Scan.skipComment]
        exact hclose
      rw [if_neg hclose, hskip, ← hrest]
      exact ⟨j, hj, by omega, hdrop⟩
  | case2 i hi =>
    have hend : toks.drop i = [] := List.drop_eq_nil_of_le (by omega)
    refine ⟨i, rfl, le_rfl, ?_⟩
    rw [drop_add hend 1, hend]
    rfl

/-! ## 5. The walk -/

theorem isSome_numberAt (h : toks.drop i = rest) :
    (numberAt toks i).isSome = Scan.startsWithNumber rest := by
  rcases numberAt_cases h with ⟨hnumber, hne⟩ | ⟨digits, rest, rfl, hnumber, hrest⟩
  · have hnone : ∀ digits rest', rest = .number digits :: rest' → False := hne
    simp only [hnumber, Scan.startsWithNumber]
    rfl
  · rw [hnumber]
    rfl

/-- **A step goes through without a fault, and gets ahead.**  The tokens are those of a text, so
that numbers hold digits and words letters. -/
theorem step_simulates (lenient : Bool) {token : Token}
    (htoks : ∀ token ∈ toks, token.Uniform) (h : toks.drop i = token :: rest) :
    Simulates toks i (step lenient toks s i) (Scan.step lenient s token rest) := by
  have hrest : toks.drop (i + 1) = rest := drop_add h 1
  have htokens : ∀ token' ∈ token :: rest, token'.Uniform := by
    rw [← h]
    exact fun token' ht => htoks token' (List.mem_of_mem_drop ht)
  obtain ⟨htoken, htail⟩ := List.forall_mem_cons.mp htokens
  unfold Scan.step
  split
  case h_1 digits =>
    simp only [step, tokenAt_eq h, ok_bind]
    exact readNumber_simulates htoken htail h
  case h_2 letters =>
    simp only [step, tokenAt_eq h, ok_bind, readWord_eq htoken]
    cases s.readWord letters with
    | ok s' => exact .ok (Nat.lt_succ_self i) hrest
    | error e =>
      cases lenient
      · exact .error
      · exact .ok (Nat.lt_succ_self i) hrest
  case h_3 | h_5 =>
    simp only [step, tokenAt_eq h, ok_bind, isSome_numberAt hrest]
    split
    · exact readOffset_simulates htail h
    · exact .ok (Nat.lt_succ_self i) hrest
  case h_4 =>
    simp only [step, tokenAt_eq h, ok_bind, isSome_numberAt hrest]
    split
    · exact readOffset_simulates htail h
    · exact .error
  case h_6 =>
    obtain ⟨j, hend, hle, hdrop⟩ := exists_commentEnd toks i
    rw [h, Scan.skipComment] at hdrop
    · simp only [step, tokenAt_eq h, ok_bind, hend]
      exact .ok (by omega) hdrop
    · exact fun heq => absurd heq (by decide)
  case h_10 =>
    simp only [step, tokenAt_eq h, ok_bind]
    exact .error
  all_goals
    simp only [step, tokenAt_eq h, ok_bind]
    exact .ok (Nat.lt_succ_self i) hrest

/-- **A walk over uniform tokens goes through without a fault**, by induction on the tokens that are
left; the index that grows is the recursion of the machine. -/
theorem run_eq (lenient : Bool) (htoks : ∀ token ∈ toks, token.Uniform) (s : Scan) (i : Nat) :
    run lenient toks s i = lift (Scan.run lenient s (toks.drop i)) := by
  fun_induction run lenient toks s i with
  | case1 s i hi e hstep =>
    obtain ⟨token, rest, h⟩ := exists_drop_eq_cons hi
    have hsim := step_simulates (s := s) lenient htoks h
    rw [hstep] at hsim
    generalize hmodel : Scan.step lenient s token rest = result at hsim
    cases hsim with
    | error => rw [h, Scan.run_cons_of_error hmodel, lift_error]
  | case2 s i hi s' i' hstep hlt ih =>
    obtain ⟨token, rest, h⟩ := exists_drop_eq_cons hi
    have hsim := step_simulates (s := s) lenient htoks h
    rw [hstep] at hsim
    generalize hmodel : Scan.step lenient s token rest = result at hsim
    cases hsim with
    | ok _ hdrop => rw [ih, h, Scan.run_cons_of_ok hmodel, hdrop]
  | case3 s i hi s' i' hstep hle =>
    obtain ⟨token, rest, h⟩ := exists_drop_eq_cons hi
    have hsim := step_simulates (s := s) lenient htoks h
    rw [hstep] at hsim
    generalize Scan.step lenient s token rest = result at hsim
    cases hsim with
    | ok hlt _ => contradiction
  | case4 s i hi =>
    rw [List.drop_eq_nil_of_le (by omega), Scan.run_nil]
    rfl

end Machine
end DateText
end Interchange
