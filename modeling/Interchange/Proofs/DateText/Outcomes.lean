/-
# What a scan can end in

Numbers of the calendar part are checked only once all of them are collected.  Three things are
certain from the start: a zone offset is always less than a day, the milliseconds of a clock never
fill a second, and a scan stops only with errors of its own, none of which blames the date as a
whole.

`Outcome` lists what one step can do to the clock and the zone offset, errors included.  Each
function of the scan has one of these outcomes, and all that is said of whole scans follows from the
list.

* `outcome_step`: a step has one of the outcomes;
* `bounded_run`: a scan that ends keeps the bounds;
* `run_error`: a scan that stops does so with an error of the scan.
-/
import Interchange.Proofs.DateText.Steps

namespace Interchange

open Calendar

namespace DateText

/-- What a scan can stop at: a token out of place, a clock or a zone offset that is cut short, and
hours or minutes of an offset that do not exist. -/
def Error.IsOfScan : Error → Prop
  | .unexpectedToken _ => True
  | .missingField field => field = .minute ∨ field = .zoneOffset
  | .fieldOutOfRange field value =>
    (field = .zoneHour ∧ 23 < value) ∨ (field = .zoneMinute ∧ 59 < value)
  | .empty | .unrepresentable => False

namespace Scan

/-! ## 1. Milliseconds -/

theorem value_lt_thousand {digits : List Char} (h : ∀ c ∈ digits, c.isDigit = true)
    (hlength : digits.length ≤ 3) : Decimal.value digits < 1000 := by
  calc Decimal.value digits < Decimal.powerOfTen digits.length := value_lt h
    _ ≤ Decimal.powerOfTen 3 := Nat.pow_le_pow_right (by decide) hlength

theorem fractionMillis_lt {digits : List Char} (h : IsDigits digits) :
    fractionMillis digits < 1000 := by
  refine value_lt_thousand (fun c hc => ?_) ?_
  · rcases List.mem_append.mp hc with hc | hc
    · exact h.2 c (List.mem_of_mem_take hc)
    · rw [List.eq_of_mem_replicate hc]
      rfl
  · rw [List.length_append, List.length_take, List.length_replicate]
    omega

theorem slice_lt {digits : List Char} (h : IsDigits digits) (start : Nat) :
    slice digits start 3 < 1000 :=
  value_lt_thousand (fun c hc => h.2 c (List.mem_of_mem_drop (List.mem_of_mem_take hc)))
    (List.length_take_le 3 _)

/-! ## 2. What one step can do -/

/-- What reading can do to the clock and the zone offset of a scan. -/
inductive Outcome (s : Scan) : Except Error (Scan × List Token) → Prop where
  /-- Neither is read. -/
  | kept {s' : Scan} {rest : List Token} : s'.clock = s.clock →
      s'.offsetMinutes = s.offsetMinutes → Outcome s (.ok (s', rest))
  /-- A clock is read. -/
  | clock {s' : Scan} {rest : List Token} {c : Clock} : s'.clock = some c → c.millisecond < 1000 →
      s'.offsetMinutes = s.offsetMinutes → Outcome s (.ok (s', rest))
  /-- A zone offset is read. -/
  | offset {s' : Scan} {rest : List Token} {minutes : Int} : s'.clock = s.clock →
      s'.offsetMinutes = some minutes → minutes.natAbs < 24 * 60 → Outcome s (.ok (s', rest))
  /-- UTC is named; an offset that is there stays. -/
  | utc {s' : Scan} {rest : List Token} : s'.clock = s.clock →
      s'.offsetMinutes = some (s.offsetMinutes.getD 0) → Outcome s (.ok (s', rest))
  /-- Reading stops. -/
  | error {e : Error} : e.IsOfScan → Outcome s (.error e)

variable {s s' t : Scan} {rest rest' : List Token} {e : Error}

theorem Outcome.congr {result : Except Error (Scan × List Token)} (hclock : t.clock = s.clock)
    (hoffset : t.offsetMinutes = s.offsetMinutes) (h : t.Outcome result) : s.Outcome result := by
  cases h with
  | kept hc ho => exact .kept (hc.trans hclock) (ho.trans hoffset)
  | clock hc hlt ho => exact .clock hc hlt (ho.trans hoffset)
  | offset hc ho hlt => exact .offset (hc.trans hclock) ho hlt
  | utc hc ho => exact .utc (hc.trans hclock) (ho.trans (by rw [hoffset]))
  | error he => exact .error he

theorem outcome_pushNumber (s : Scan) (digits : List Char) (negative : Bool) (rest : List Token) :
    s.Outcome ((s.pushNumber digits negative).map (·, rest)) := by
  unfold pushNumber
  split
  · exact .kept rfl rfl
  · exact .error trivial

theorem outcome_readCompact (s : Scan) {digits : List Char} (hd : IsDigits digits) (yearWidth : Nat)
    (negative : Bool) (rest : List Token) :
    s.Outcome (.ok (s.readCompact digits yearWidth negative, rest)) := by
  by_cases hwide : yearWidth + 4 < digits.length
  · exact .clock (if_pos hwide) (slice_lt hd (yearWidth + 10)) rfl
  · exact .kept (if_neg hwide) rfl

theorem outcome_readClock (s : Scan) (hour : List Char) (hrest : ∀ token ∈ rest, token.Uniform) :
    s.Outcome (s.readClock hour rest) := by
  unfold readClock
  split
  · exact .error trivial
  split
  · next minute second fraction rest =>
    have hfraction : IsDigits fraction := hrest (.number fraction) (by simp)
    exact .clock rfl (fractionMillis_lt hfraction) rfl
  · exact .clock rfl (Nat.zero_lt_succ 999) rfl
  · exact .clock rfl (Nat.zero_lt_succ 999) rfl
  · exact .error (.inl rfl)

theorem outcome_readNumber (s : Scan) {digits : List Char} (hd : IsDigits digits)
    (hrest : ∀ token ∈ rest, token.Uniform) : s.Outcome (s.readNumber digits rest) := by
  -- the pending sign is taken first, and is neither clock nor offset
  refine Outcome.congr (t := { s with minusPending := false }) rfl rfl ?_
  unfold readNumber
  dsimp only
  split
  · split
    · exact .error trivial
    · exact outcome_readClock _ _ fun token ht => hrest token (List.mem_cons_of_mem _ ht)
  · split
    · split
      · exact outcome_readCompact _ hd _ _ _
      · exact outcome_pushNumber _ _ _ _
    · exact outcome_pushNumber _ _ _ _

theorem outcome_setOffset (s : Scan) (direction : Direction) (hours minutes : Nat)
    (rest : List Token) : s.Outcome ((s.setOffset direction hours minutes).map (·, rest)) := by
  unfold setOffset
  split
  · next hhours => exact .error (.inl ⟨rfl, by omega⟩)
  split
  · next hminutes => exact .error (.inr ⟨rfl, by omega⟩)
  · exact .offset rfl rfl (by split <;> omega)

theorem outcome_readOffset (s : Scan) (direction : Direction) (rest : List Token) :
    s.Outcome (s.readOffset direction rest) := by
  unfold readOffset
  split
  · split
    · exact outcome_setOffset ..
    split
    · split
      · exact outcome_setOffset ..
      · exact outcome_setOffset ..
    · exact .error trivial
  · exact .error (.inr rfl)

/-- **A step of the scan has one of the outcomes.**  The arms are gone through here once; whole
scans need the list only. -/
theorem outcome_step (lenient : Bool) (s : Scan) {token : Token} (htoken : token.Uniform)
    (hrest : ∀ token ∈ rest, token.Uniform) : s.Outcome (step lenient s token rest) := by
  unfold step
  split
  case h_1 => exact outcome_readNumber s htoken hrest
  case h_2 letters =>
    rcases readWord_cases letters with hword | hword | ⟨half, hword⟩ | ⟨index, -, hword⟩ | hword
    · rw [hword s]
      exact .kept rfl rfl
    · rw [hword s]
      exact .utc rfl rfl
    · rw [hword s]
      exact .kept rfl rfl
    · rw [hword s]
      exact .kept rfl rfl
    · rw [hword s]
      dsimp only
      split
      · exact .kept rfl rfl
      · exact .error trivial
  case h_3 | h_5 =>
    split
    · exact outcome_readOffset ..
    · exact .kept rfl rfl
  case h_4 =>
    split
    · exact outcome_readOffset ..
    · exact .error trivial
  case h_10 => exact .error trivial
  all_goals exact .kept rfl rfl

/-! ## 3. Whole scans -/

/-- The zone offset is less than a day, and the clock has less than a thousand milliseconds. -/
structure Bounded (s : Scan) : Prop where
  offset : ∀ minutes ∈ s.offsetMinutes, minutes.natAbs < 24 * 60
  millisecond : ∀ clock ∈ s.clock, clock.millisecond < 1000

theorem bounded_initial : initial.Bounded where
  offset _ h := absurd h (Option.not_mem_none _)
  millisecond _ h := absurd h (Option.not_mem_none _)

/-- Without an offset, the date is not moved at all. -/
theorem Bounded.offset_lt (hs : s.Bounded) : (s.offsetMinutes.getD 0).natAbs < 24 * 60 := by
  cases hoffset : s.offsetMinutes with
  | none => decide
  | some minutes => exact hs.offset minutes hoffset

theorem Bounded.millisecond_lt (hs : s.Bounded) : s.clockOrMidnight.millisecond < 1000 := by
  unfold clockOrMidnight
  cases hclock : s.clock with
  | none => decide
  | some clock => exact hs.millisecond clock hclock

/-- **A step that succeeds keeps the bounds**: what it sets was checked, and the rest is as before.
-/
theorem Outcome.bounded (h : s.Outcome (.ok (s', rest))) (hs : s.Bounded) : s'.Bounded := by
  cases h with
  | kept hc ho => exact ⟨ho ▸ hs.offset, hc ▸ hs.millisecond⟩
  | clock hc hlt ho =>
    refine ⟨ho ▸ hs.offset, fun c' hc' => ?_⟩
    obtain rfl := Option.some.inj (hc.symm.trans hc')
    exact hlt
  | offset hc ho hlt =>
    refine ⟨fun minutes' ho' => ?_, hc ▸ hs.millisecond⟩
    obtain rfl := Option.some.inj (ho.symm.trans ho')
    exact hlt
  | utc hc ho =>
    refine ⟨fun minutes' ho' => ?_, hc ▸ hs.millisecond⟩
    obtain rfl := Option.some.inj (ho.symm.trans ho')
    exact hs.offset_lt

/-- **A scan of uniform tokens that ends keeps the bounds.** -/
theorem bounded_run {lenient : Bool} {toks : List Token} (hs : s.Bounded)
    (htoks : ∀ token ∈ toks, token.Uniform) (h : run lenient s toks = .ok s') : s'.Bounded := by
  fun_induction run lenient s toks with
  | case1 s =>
    obtain rfl := Except.ok.inj h
    exact hs
  | case2 s token rest e hstep => contradiction
  | case3 s token rest t rest' hstep ih =>
    obtain ⟨htoken, hrest⟩ := List.forall_mem_cons.mp htoks
    have houtcome := outcome_step lenient s htoken hrest
    rw [hstep] at houtcome
    exact ih (houtcome.bounded hs) (fun token ht => hrest token ((suffix_step hstep).mem ht)) h

/-- **A scan of uniform tokens that stops does so with an error of the scan**, never with one of the
calendar, which is asked when the scan has ended. -/
theorem run_error {lenient : Bool} {toks : List Token} (htoks : ∀ token ∈ toks, token.Uniform)
    (h : run lenient s toks = .error e) : e.IsOfScan := by
  fun_induction run lenient s toks with
  | case1 s => contradiction
  | case2 s token rest e' hstep =>
    obtain rfl := Except.error.inj h
    obtain ⟨htoken, hrest⟩ := List.forall_mem_cons.mp htoks
    have houtcome := outcome_step lenient s htoken hrest
    rw [hstep] at houtcome
    cases houtcome with
    | error he => exact he
  | case3 s token rest t rest' hstep ih =>
    obtain ⟨-, hrest⟩ := List.forall_mem_cons.mp htoks
    exact ih (fun token ht => hrest token ((suffix_step hstep).mem ht)) h

end Scan
end DateText
end Interchange
