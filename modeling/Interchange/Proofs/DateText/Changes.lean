/-
# What a step changes

A step of the scan changes the scan in one of three ways.  A number takes the pending sign and may
be collected, as a number of the calendar or in a clock; the sign of a field becomes pending; and
everything else leaves the numbers, the clock and the sign alone.

Numbers are collected as they are written: each has a digit, and with no more than two of them it is
less than a hundred.

* `Change`: the three ways;
* `step_change`: every step changes the scan in one of them;
* `Change.minusPending`, `sized_run`: what follows for the sign, and for the numbers of a whole
  scan.
-/
import Interchange.Proofs.DateText.Steps

namespace Interchange
namespace DateText

/-! ## 1. Numbers as they are written -/

/-- The number has a digit, and no more than two of them are less than a hundred: what a century can
be added to without leaving 64 bits. -/
structure Quantity.Sized (q : Quantity) : Prop where
  one_le_digits : 1 ≤ q.digits
  natAbs_lt : q.digits ≤ 2 → q.value.natAbs < 100

/-- **The quantity of a run of digits is as it is written.** -/
theorem Quantity.sized_ofDigits (negative : Bool) {digits : List Char} (h : IsDigits digits) :
    (Quantity.ofDigits negative digits).Sized where
  one_le_digits := List.length_pos_iff.mpr h.1
  natAbs_lt hshort := by
    have hlength : digits.length ≤ 2 := hshort
    have hcount : count digits < 100 := by
      calc count digits ≤ Decimal.value digits := Nat.min_le_left _ _
        _ < Decimal.powerOfTen digits.length := value_lt h.2
        _ ≤ Decimal.powerOfTen 2 := Nat.pow_le_pow_right (by decide) hlength
    cases negative
    · exact hcount
    · simpa [Quantity.ofDigits] using hcount

namespace Scan

/-! ## 2. The ways to change -/

/-- What a step at a token can change, and what it leaves of the tokens behind that one.  One
constructor stands for several arms of the loop; the arms that stop the scan have none. -/
inductive Change (s : Scan) : Token → List Token → Scan → List Token → Prop where
  /-- A number takes the sign. -/
  | number {digits : List Char} {rest rest' : List Token} {numbers : List Quantity}
      {clock : Option Clock} : (∀ q ∈ numbers, q ∈ s.numbers ∨ q.Sized) →
      Change s (.number digits) rest
        { s with numbers := numbers, clock := clock, minusPending := false } rest'
  /-- The sign of a field is pending. -/
  | sign {rest : List Token} : Change s .leadingMinus rest { s with minusPending := true } rest
  /-- Numbers, clock and sign are as before. -/
  | other {token : Token} {rest rest' : List Token} {month : Option Nat} {offset : Option Int}
      {half : Option Meridiem} : (∀ digits, token ≠ .number digits) →
      Change s token rest { s with month := month, offsetMinutes := offset, meridiem := half } rest'

variable {lenient : Bool} {s s' : Scan} {token : Token} {rest rest' : List Token}

theorem exists_of_readClock {hour : List Char} (h : s.readClock hour rest = .ok (s', rest')) :
    ∃ clock, s' = { s with clock := clock } := by
  unfold readClock at h
  split at h
  · contradiction
  · split at h
    · exact ⟨_, (Prod.mk.inj (Except.ok.inj h)).1.symm⟩
    · exact ⟨_, (Prod.mk.inj (Except.ok.inj h)).1.symm⟩
    · exact ⟨_, (Prod.mk.inj (Except.ok.inj h)).1.symm⟩
    · contradiction

theorem exists_of_readOffset {direction : Direction}
    (h : s.readOffset direction rest = .ok (s', rest')) :
    ∃ offset, s' = { s with offsetMinutes := offset } := by
  have hset : ∀ {hours minutes : Nat}, s.setOffset direction hours minutes = .ok s' →
      ∃ offset, s' = { s with offsetMinutes := offset } := by
    intro hours minutes hs
    unfold setOffset at hs
    split at hs
    · contradiction
    · split at hs
      · contradiction
      · exact ⟨_, (Except.ok.inj hs).symm⟩
  unfold readOffset at h
  split at h
  · split at h
    · exact hset (map_pair_eq_ok h).1
    · split at h
      · split at h
        · exact hset (map_pair_eq_ok h).1
        · exact hset (map_pair_eq_ok h).1
      · contradiction
  · contradiction

theorem exists_of_readWord {letters : List Char} (h : s.readWord letters = .ok s') :
    ∃ month offset half,
      s' = { s with month := month, offsetMinutes := offset, meridiem := half } := by
  rcases readWord_cases letters with hword | hword | ⟨half, hword⟩ | ⟨index, -, hword⟩ | hword
  all_goals rw [hword s] at h
  case inr.inr.inr.inr => contradiction
  all_goals exact ⟨_, _, _, (Except.ok.inj h).symm⟩

/-- A run of digits that is a whole date has a year of four to six digits, and behind the day it
ends, or goes on to the minutes, the seconds or the milliseconds. -/
theorem compactYearWidth_cases {width yearWidth : Nat}
    (h : compactYearWidth width = some yearWidth) :
    4 ≤ yearWidth ∧ yearWidth ≤ 6 ∧ (width = yearWidth + 4 ∨ width = yearWidth + 8 ∨
      width = yearWidth + 10 ∨ width = yearWidth + 13) := by
  unfold compactYearWidth at h
  split at h
  · obtain rfl := Option.some.inj h
    omega
  · split at h
    · obtain rfl := Option.some.inj h
      omega
    · split at h
      · obtain rfl := Option.some.inj h
        omega
      · contradiction

theorem sized_readCompact {digits : List Char} (hd : IsDigits digits) {yearWidth : Nat}
    (hwidth : compactYearWidth digits.length = some yearWidth) {negative : Bool} :
    ∀ q ∈ (s.readCompact digits yearWidth negative).numbers, q.Sized := by
  have hlong := compactYearWidth_cases hwidth
  intro q hq
  simp only [readCompact, List.mem_cons, List.not_mem_nil, or_false] at hq
  rcases hq with rfl | rfl | rfl
  · exact Quantity.sized_ofDigits _ (hd.part 0 yearWidth (by omega) (by omega))
  · exact Quantity.sized_ofDigits _ (hd.part _ 2 (by decide) (by omega))
  · exact Quantity.sized_ofDigits _ (hd.part _ 2 (by decide) (by omega))

theorem change_readNumber {digits : List Char} (hd : IsDigits digits)
    (h : s.readNumber digits rest = .ok (s', rest')) : Change s (.number digits) rest s' rest' := by
  have hpush : ∀ {u : Scan},
      ({ s with minusPending := false } : Scan).pushNumber digits s.minusPending = .ok u →
      Change s (.number digits) rest u rest' := by
    intro u hu
    unfold pushNumber at hu
    split at hu
    · obtain rfl := Except.ok.inj hu
      refine .number fun q hq => ?_
      rcases List.mem_append.mp hq with hq | hq
      · exact .inl hq
      · obtain rfl := List.mem_singleton.mp hq
        exact .inr (Quantity.sized_ofDigits _ hd)
    · contradiction
  unfold readNumber at h
  dsimp only at h
  split at h
  · split at h
    · contradiction
    · obtain ⟨clock, rfl⟩ := exists_of_readClock h
      exact .number fun q hq => .inl hq
  · split at h
    · next width hwidth =>
      split at h
      · obtain ⟨rfl, -⟩ := Prod.mk.inj (Except.ok.inj h)
        exact .number fun q hq => .inr (sized_readCompact (s := s) hd hwidth q hq)
      · exact hpush (map_pair_eq_ok h).1
    · exact hpush (map_pair_eq_ok h).1

/-- **Every step changes the scan in one of the three ways.**  What is said of numbers and signs in
whole scans follows from this list, and not from the arms of the loop again. -/
theorem step_change (htoken : token.Uniform) (h : step lenient s token rest = .ok (s', rest')) :
    Change s token rest s' rest' := by
  unfold step at h
  split at h
  case h_1 => exact change_readNumber htoken h
  case h_2 =>
    have hother : ∀ letters digits, Token.word letters ≠ .number digits :=
      fun _ _ => Token.noConfusion
    split at h
    · next hword =>
      obtain ⟨rfl, -⟩ := Prod.mk.inj (Except.ok.inj h)
      obtain ⟨month, offset, half, rfl⟩ := exists_of_readWord hword
      exact .other (hother _)
    · split at h
      · obtain ⟨rfl, -⟩ := Prod.mk.inj (Except.ok.inj h)
        exact .other (hother _)
      · contradiction
  case h_3 =>
    split at h
    · obtain ⟨offset, rfl⟩ := exists_of_readOffset h
      exact .other fun _ => Token.noConfusion
    · obtain ⟨rfl, rfl⟩ := Prod.mk.inj (Except.ok.inj h)
      exact .sign
  case h_4 =>
    split at h
    · obtain ⟨offset, rfl⟩ := exists_of_readOffset h
      exact .other fun _ => Token.noConfusion
    · contradiction
  case h_5 =>
    split at h
    · obtain ⟨offset, rfl⟩ := exists_of_readOffset h
      exact .other fun _ => Token.noConfusion
    · obtain ⟨rfl, -⟩ := Prod.mk.inj (Except.ok.inj h)
      exact .other fun _ => Token.noConfusion
  case h_10 => contradiction
  all_goals
    obtain ⟨rfl, -⟩ := Prod.mk.inj (Except.ok.inj h)
    exact .other fun _ => Token.noConfusion

/-! ## 3. The sign and the numbers -/

/-- **A sign is pending after a step** only if the step read the sign of a field, or if it was
pending before and the step read no number. -/
theorem Change.minusPending (h : Change s token rest s' rest') (hpending : s'.minusPending = true) :
    (token = .leadingMinus ∧ rest' = rest) ∨
      (s.minusPending = true ∧ ∀ digits, token ≠ .number digits) := by
  cases h with
  | number => contradiction
  | sign => exact .inl ⟨rfl, rfl⟩
  | other hother => exact .inr ⟨hpending, hother⟩

theorem Change.sized (h : Change s token rest s' rest') (hs : ∀ q ∈ s.numbers, q.Sized) :
    ∀ q ∈ s'.numbers, q.Sized := by
  cases h with
  | number hnumbers => exact fun q hq => (hnumbers q hq).elim (hs q) id
  | sign => exact hs
  | other => exact hs

/-- **A scan collects numbers as they are written**: by induction on the tokens, each step by
`step_change`. -/
theorem sized_run {toks : List Token} (hs : ∀ q ∈ s.numbers, q.Sized)
    (htoks : ∀ token ∈ toks, token.Uniform) (h : run lenient s toks = .ok s') :
    ∀ q ∈ s'.numbers, q.Sized := by
  fun_induction run lenient s toks with
  | case1 s =>
    obtain rfl := Except.ok.inj h
    exact hs
  | case2 s token rest e hstep => contradiction
  | case3 s token rest t rest' hstep ih =>
    obtain ⟨htoken, hrest⟩ := List.forall_mem_cons.mp htoks
    exact ih ((step_change htoken hstep).sized hs)
      (fun token ht => hrest token ((suffix_step hstep).mem ht)) h

end Scan
end DateText
end Interchange
