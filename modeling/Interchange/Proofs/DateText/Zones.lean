/-
# Zones behind a clock

A zone may follow a clock, after a blank: a name of UTC, or an offset in hours and minutes, with or
without `GMT` before its sign and with or without a colon inside.  What the sign and the colon mean
depends on what was scanned before.  A minus sign can be the sign of a year or a separator, and a
colon can open a clock, but behind a clock they can only belong to the offset.

* `WritesZone`: what is written for a zone;
* `WritesZone.run`: every zone behind a clock is scanned as its offset;
* `read_append_zone`: a zone moves the instant of the text before it by its offset, and UTC not at
  all.
-/
import Interchange.Proofs.DateText.Acceptance
import Interchange.Proofs.DateText.Appending

namespace Interchange

open Calendar Decimal

namespace DateText

/-! ## 1. What is written -/

def Scan.Direction.sign : Scan.Direction → Char
  | .ahead => '+'
  | .behind => '-'

def Scan.Direction.signed : Scan.Direction → Nat → Int
  | .ahead, minutes => minutes
  | .behind, minutes => -minutes

def utcNames : List (List Char) := ["Z", "GMT", "UTC", "UT"].map String.toList

/-- What may stand in front of the sign of an offset.  The name sets the offset to zero, and the
digits behind it replace that. -/
def IsBeforeSign (text : List Char) : Prop := text = [] ∨ text = "GMT".toList

/-- A zone so many minutes ahead of UTC: a name of UTC, or a sign with two digits of hours and two
of minutes, with or without a colon, and perhaps behind `GMT`. -/
inductive WritesZone : Int → List Char → Prop where
  /-- Like `Z`. -/
  | utc {name : List Char} : name ∈ utcNames → WritesZone 0 name
  /-- Like `+0530`, or like `GMT+0530`. -/
  | plain (direction : Scan.Direction) {before : List Char} {h m : Nat} : IsBeforeSign before →
      h < 24 → m < 60 → WritesZone (direction.signed (h * 60 + m))
        (before ++ direction.sign :: (padded 2 h ++ padded 2 m))
  /-- Like `+05:30`, or like `GMT+05:30`. -/
  | colon (direction : Scan.Direction) {before : List Char} {h m : Nat} : IsBeforeSign before →
      h < 24 → m < 60 → WritesZone (direction.signed (h * 60 + m))
        (before ++ direction.sign :: (padded 2 h ++ ':' :: padded 2 m))

/-! ## 2. The scan of an offset -/

namespace Scan

variable {s : Scan} {h m : Nat}

theorem setOffset_eq (direction : Direction) (hh : h < 24) (hm : m < 60) :
    s.setOffset direction h m =
      .ok { s with offsetMinutes := some (direction.signed (h * 60 + m)) } := by
  rw [setOffset, if_neg (by omega), if_neg (by omega)]
  cases direction <;> rfl

/-- **Four digits are the hours and minutes of an offset.** -/
theorem readOffset_plain (direction : Direction) (hh : h < 24) (hm : m < 60) :
    s.readOffset direction [.number (padded 2 h ++ padded 2 m)] =
      .ok ({ s with offsetMinutes := some (direction.signed (h * 60 + m)) }, []) := by
  have hhl := length_padded_two (n := h) (by omega)
  have hml := length_padded_two (n := m) (by omega)
  have hfour : (padded 2 h ++ padded 2 m).length = 4 := by
    rw [List.length_append, hhl, hml]
  have hhours : slice (padded 2 h ++ padded 2 m) 0 2 = h := by
    rw [slice, List.drop_zero, List.take_left' hhl, value_padded]
  have hminutes : slice (padded 2 h ++ padded 2 m) 2 2 = m := by
    rw [slice, List.drop_left' hhl, List.take_of_length_le (Nat.le_of_eq hml), value_padded]
  simp only [readOffset, if_pos hfour, hhours, hminutes, setOffset_eq direction hh hm]
  rfl

/-- **Two digits are the hours of an offset**, and two more after a colon the minutes. -/
theorem readOffset_colon (direction : Direction) (hh : h < 24) (hm : m < 60) :
    s.readOffset direction [.number (padded 2 h), .symbol ':', .number (padded 2 m)] =
      .ok ({ s with offsetMinutes := some (direction.signed (h * 60 + m)) }, []) := by
  have hhl := length_padded_two (n := h) (by omega)
  have hhours : count (padded 2 h) = h := count_padded (by simp only [countLimit]; omega)
  have hminutes : count (padded 2 m) = m := count_padded (by simp only [countLimit]; omega)
  simp only [readOffset, hhl, hhours, hminutes, setOffset_eq direction hh hm]
  rfl

theorem run_signed {opening lenient : Bool} {direction : Direction} {digits rest : List Char}
    {s' : Scan} {rest' : List Token} (hclock : s.clock.isSome = true) (hd : IsDigits digits)
    (hrest : startsWithDigit rest = false)
    (hread : s.readOffset direction (.number digits :: tokens false rest) = .ok (s', rest')) :
    run lenient s (tokens opening (direction.sign :: (digits ++ rest))) = run lenient s' rest' := by
  have hnumber : tokens false (digits ++ rest) = .number digits :: tokens false rest :=
    tokens_number hd hrest
  -- the plus is a symbol, and the minus is the sign of a field where one opens
  cases direction with
  | ahead =>
    have hsymbol : tokens opening (Direction.ahead.sign :: (digits ++ rest)) =
        .symbol '+' :: tokens false (digits ++ rest) :=
      tokens_symbol (by decide) (by decide) (by decide) fun h => absurd h (by decide)
    rw [hsymbol, hnumber]
    refine run_cons_of_ok ?_
    simp only [step, hclock, startsWithNumber, Bool.and_self, if_true, hread]
  | behind =>
    cases opening with
    | true =>
      have hminus : tokens true (Direction.behind.sign :: (digits ++ rest)) =
          .leadingMinus :: tokens false (digits ++ rest) :=
        tokens_leadingMinus (startsWithDigit_append hd rest)
      rw [hminus, hnumber]
      refine run_cons_of_ok ?_
      simp only [step, hclock, if_true, hread]
    | false =>
      have hsymbol : tokens false (Direction.behind.sign :: (digits ++ rest)) =
          .symbol '-' :: tokens false (digits ++ rest) := tokens_symbol_inside (by decide)
      rw [hsymbol, hnumber]
      refine run_cons_of_ok ?_
      simp only [step, hclock, startsWithNumber, Bool.and_self, if_true, hread]

theorem run_plain {opening lenient : Bool} (direction : Direction) (hclock : s.clock.isSome = true)
    (hh : h < 24) (hm : m < 60) :
    run lenient s (tokens opening (direction.sign :: (padded 2 h ++ padded 2 m))) =
      .ok { s with offsetMinutes := some (direction.signed (h * 60 + m)) } := by
  have hdigits : IsDigits (padded 2 h ++ padded 2 m) :=
    (isDigits_padded 2 h).append (isDigits_padded 2 m).2
  have hread := readOffset_plain (s := s) direction hh hm
  rw [← tokens_nil false] at hread
  rw [← List.append_nil (padded 2 h ++ padded 2 m), run_signed hclock hdigits rfl hread, tokens_nil,
    run_nil]

theorem run_colon {opening lenient : Bool} (direction : Direction) (hclock : s.clock.isSome = true)
    (hh : h < 24) (hm : m < 60) :
    run lenient s (tokens opening (direction.sign :: (padded 2 h ++ ':' :: padded 2 m))) =
      .ok { s with offsetMinutes := some (direction.signed (h * 60 + m)) } := by
  have htokens : tokens false (':' :: padded 2 m) = [.symbol ':', .number (padded 2 m)] := by
    rw [tokens_symbol_inside (by decide), tokens_digits (isDigits_padded 2 m)]
  have hread := readOffset_colon (s := s) direction hh hm
  rw [← htokens] at hread
  rw [run_signed hclock (isDigits_padded 2 h) rfl hread, run_nil]

end Scan

/-! ## 3. The scan of a zone -/

/-- A name of UTC is a word, and sets an offset only where there is none. -/
theorem utcNames_spec {name : List Char} (hname : name ∈ utcNames) :
    IsLetters name ∧ ∀ s : Scan, s.readWord name =
      .ok { s with offsetMinutes := some (s.offsetMinutes.getD 0) } := by
  simp only [utcNames, List.map_cons, List.map_nil, List.mem_cons, List.not_mem_nil, or_false]
    at hname
  rcases hname with rfl | rfl | rfl | rfl
  all_goals exact ⟨isLetters_of_all (by decide), fun s => rfl⟩

/-- `GMT` before an offset is a word of its own, and the offset replaces what it sets. -/
theorem run_before {lenient : Bool} {s : Scan} {before rest : List Char}
    {direction : Scan.Direction} {minutes : Int} (hbefore : IsBeforeSign before)
    (hclock : s.clock.isSome = true)
    (hrun : ∀ (opening : Bool) (t : Scan), t.clock.isSome = true →
      Scan.run lenient t (tokens opening (direction.sign :: rest)) =
        .ok { t with offsetMinutes := some minutes }) :
    Scan.run lenient s (tokens true (before ++ direction.sign :: rest)) =
      .ok { s with offsetMinutes := some minutes } := by
  rcases hbefore with rfl | rfl
  · exact hrun true s hclock
  · have hgmt : "GMT".toList ∈ utcNames := by decide
    obtain ⟨hletters, hread⟩ := utcNames_spec hgmt
    have hsign : startsWithLetter (direction.sign :: rest) = false := by
      cases direction <;> rfl
    have hset := hrun false { s with offsetMinutes := some (s.offsetMinutes.getD 0) } hclock
    rw [tokens_word hletters hsign, Scan.run_word (hread s), hset]

/-- **Every zone behind a clock is scanned as its offset.**  Where a name stands in front of the
sign, the name sets the offset first and the digits replace it. -/
theorem WritesZone.run {minutes : Int} {zone : List Char} (h : WritesZone minutes zone)
    (lenient : Bool) {s : Scan} (hclock : s.clock.isSome = true)
    (hoffset : s.offsetMinutes = none) :
    Scan.run lenient s (tokens true zone) = .ok { s with offsetMinutes := some minutes } := by
  cases h with
  | @utc name hname =>
    obtain ⟨hletters, hread⟩ := utcNames_spec hname
    rw [tokens_letters hletters, Scan.run_word (hread s), Scan.run_nil, hoffset]
    rfl
  | plain direction hbefore hh hm =>
    exact run_before hbefore hclock fun opening t ht => Scan.run_plain direction ht hh hm
  | colon direction hbefore hh hm =>
    exact run_before hbefore hclock fun opening t ht => Scan.run_colon direction ht hh hm

theorem WritesZone.standApart {minutes : Int} {zone : List Char} (h : WritesZone minutes zone) :
    StandApart (tokens true zone) := by
  have hsigned : ∀ (direction : Scan.Direction) (before rest : List Char),
      IsBeforeSign before → StandApart (tokens true (before ++ direction.sign :: rest)) := by
    intro direction before rest hbefore
    rcases hbefore with rfl | rfl
    · cases direction <;> exact standApart_tokens rfl rfl (by decide) (by decide)
    · exact standApart_tokens (c := 'G') rfl rfl (by decide) (by decide)
  cases h with
  | utc hname =>
    rw [tokens_letters (utcNames_spec hname).1]
    exact standApart_word _ _
  | plain direction hbefore => exact hsigned direction _ _ hbefore
  | colon direction hbefore => exact hsigned direction _ _ hbefore

theorem WritesZone.natAbs_lt {minutes : Int} {zone : List Char} (h : WritesZone minutes zone) :
    minutes.natAbs < 24 * 60 := by
  cases h with
  | utc => decide
  | plain direction _ hh hm | colon direction _ hh hm =>
    cases direction <;> simp only [Scan.Direction.signed] <;> omega

/-! ## 4. The instant in a zone -/

/-- **A zone offset moves what the parts denote**, and nothing else: no check looks at it. -/
theorem Scan.millis_offset {s : Scan} {ms : Int} (hoffset : s.offsetMinutes = none)
    (h : s.millis = .ok ms) (minutes : Int) :
    ({ s with offsetMinutes := some minutes } : Scan).millis =
      .ok (ms - minutes * millisPerMinute) := by
  obtain ⟨t, ⟨hday, hclock⟩, ht, hyear, rfl⟩ := exists_of_millis h
  rw [hoffset, Option.getD_none, Int.zero_mul, Int.sub_zero]
  have hshows : ({ s with offsetMinutes := some minutes } : Scan).Shows t := ⟨hday, hclock⟩
  exact hshows.millis_eq ht hyear

/-- **A text with a zone behind its clock is read as the text**, moved by the offset. -/
theorem readMillis_append_zone (lenient : Bool) {text zone : List Char} {s : Scan}
    {ms minutes : Int} (hblank : text.all isBlank = false) (hopen : '(' ∉ text)
    (hscan : Scan.run lenient .initial (tokens true text) = .ok s) (hmillis : s.millis = .ok ms)
    (hclock : s.clock.isSome = true) (hoffset : s.offsetMinutes = none)
    (hzone : WritesZone minutes zone) :
    readMillis lenient (text ++ ' ' :: zone) = .ok (ms - minutes * millisPerMinute) := by
  have hblank' : (text ++ ' ' :: zone).all isBlank = false := by
    rw [List.all_append, hblank, Bool.false_and]
  rw [readMillis, hblank', run_tokens_append rfl lenient hopen hzone.standApart, hscan]
  simp only [bind, Except.bind, hzone.run lenient hclock hoffset, Bool.false_eq_true, if_false]
  exact Scan.millis_offset hoffset hmillis minutes

end DateText

namespace Instant

open DateText

/-- **A zone behind a clock moves the instant by its offset**, whatever the text before it is: an
offset ahead of UTC gives an earlier instant, one behind a later one, and UTC the same.  Either
reading gives it. -/
theorem read_append_zone {text zone : List Char} {x : Instant} {s : Scan} {minutes : Int}
    (hread : read text = .ok x) (hopen : '(' ∉ text)
    (hscan : Scan.run false .initial (tokens true text) = .ok s) (hclock : s.clock.isSome = true)
    (hoffset : s.offsetMinutes = none) (hzone : WritesZone minutes zone) :
    ∃ y ms, read (text ++ ' ' :: zone) = .ok y ∧ parse (text ++ ' ' :: zone) = y ∧
      x.millis.toInt? = some ms ∧ y.millis.toInt? = some (ms - minutes * millisPerMinute) ∧
      (minutes = 0 → y = x) := by
  obtain ⟨ms, hms, rfl⟩ := exists_readMillis_of_read hread
  obtain ⟨hblank, s', hscan', hmillis⟩ := exists_run_of_readMillis hms
  obtain rfl : s = s' := Except.ok.inj (hscan.symm.trans hscan')
  have hmoved := readMillis_append_zone false hblank hopen hscan hmillis hclock hoffset hzone
  -- the text itself is not moved, so that the zone moves it by less than a day
  obtain ⟨t, -, ht, hyear, rfl⟩ := Scan.exists_of_millis hmillis
  rw [hoffset, Option.getD_none, Int.zero_mul, Int.sub_zero] at hmoved ⊢
  have hexact := Double.toInt?_ofInt (fits_millis (DateTime.toMillis_bounds ht hyear))
  have hexact' := toInt?_ofInt_moved ht hyear hzone.natAbs_lt
  refine ⟨ofMillis (Double.ofInt (t.toMillis - minutes * millisPerMinute)), t.toMillis, ?_, ?_, ?_,
    ?_, ?_⟩
  · rw [read, hmoved]
    rfl
  · rw [parse, readMillis_lenient_of_ok hmoved]
  · rw [ofMillis_of_toInt? hexact, hexact]
  · rw [ofMillis_of_toInt? hexact', hexact']
  · rintro rfl
    rw [Int.zero_mul, Int.sub_zero]

/-- A point and a dash that dangle behind the clock, and an offset behind UTC. -/
theorem read_append_zone_dangling :
    let text := "1994-11-15 08:12:31. -".toList
    let x : Instant := ofDateTime ⟨⟨1994, 10, 15⟩, ⟨8, 12, 31, 0⟩⟩
    read text = .ok x ∧ x.millis.toInt? = some 784887151000 ∧ WritesZone (-330) "-0530".toList ∧
      ∃ y, read (text ++ ' ' :: "-0530".toList) = .ok y ∧
        parse (text ++ ' ' :: "-0530".toList) = y ∧ y.millis.toInt? = some 784906951000 := by
  intro text x
  have hread : read text = .ok x := by decide +kernel
  have hx : x.millis.toInt? = some 784887151000 := by decide +kernel
  have hopen : '(' ∉ text := by decide +kernel
  have hscan : Scan.run false .initial (tokens true text) =
      .ok ⟨[⟨1994, 4, false⟩, ⟨11, 2, false⟩, ⟨15, 2, false⟩], none, some ⟨8, 12, 31, 0⟩, none,
        none, false⟩ := by decide +kernel
  have hzone : WritesZone (-330) "-0530".toList := by
    have htext : "-0530".toList =
        [] ++ Scan.Direction.behind.sign :: (padded 2 5 ++ padded 2 30) := by decide +kernel
    have hplain : WritesZone (Scan.Direction.behind.signed (5 * 60 + 30))
        ([] ++ Scan.Direction.behind.sign :: (padded 2 5 ++ padded 2 30)) :=
      .plain .behind (.inl rfl) (by decide) (by decide)
    rw [htext]
    exact hplain
  obtain ⟨y, ms, hy, hparse, hms, hmoved, -⟩ := read_append_zone hread hopen hscan rfl rfl hzone
  obtain rfl : 784887151000 = ms := Option.some.inj (hx.symm.trans hms)
  exact ⟨hread, hx, hzone, y, hy, hparse, hmoved⟩

end Instant
end Interchange
