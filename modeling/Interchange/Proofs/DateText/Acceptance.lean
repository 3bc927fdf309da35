/-
# Which texts are accepted

Reading goes through three stages, and each rejects a text with errors of its own: a blank text is
empty, a scan stops at a token, and collected parts denote no date or time.  What gets through is a
date and a time that exist, in a year of the calendar, moved by a zone offset of less than a day.

That is the last check.  `millis` asks the calendar for the date as it is written, subtracts the
offset behind that, and nothing looks at the calendar's range again, so a text near the first or the
last day of the calendar can be read as an instant beyond it.  Such an instant has no fields and no
text.  The error that is described for it, `unrepresentable`, is given for no text.

* `exists_of_millis`, `millis_error`: what parts that denote an instant are, and why others do not;
* `exists_moved_of_readMillis`, `readMillis_error`: the same of texts;
* `read_near_calendar`: what is read is what the scan of the text shows, less than a day from the
  calendar, and when it has fields.
-/
import Interchange.Proofs.DateText.Layouts
import Interchange.Proofs.DateText.Lenience
import Interchange.Proofs.DateText.Rejection

namespace Interchange

open Calendar

namespace DateText

/-! ## 1. Parts that denote an instant -/

/-- What collected parts can be rejected for: a number too many, a number that is not there, and a
number that no calendar or clock has. -/
def Error.IsOfParts : Error → Prop
  | .unexpectedToken _ => True
  | .missingField field => field ∈ [Field.date, .year, .month, .day]
  | .fieldOutOfRange field _ => field ∈ [Field.year, .month, .day, .hour, .minute, .second]
  | .empty | .unrepresentable => False

namespace Scan

variable {s : Scan}

/-- **Parts that denote an instant are a date and a time that exist**, in a year of the calendar,
and the zone offset moves them. -/
theorem exists_of_millis {ms : Int} (h : s.millis = .ok ms) :
    ∃ t : DateTime, s.Shows t ∧ t.Valid ∧ HasYear t.date.year ∧
      ms = t.toMillis - s.offsetMinutes.getD 0 * millisPerMinute := by
  obtain ⟨⟨year, month, day⟩, hday, h⟩ := bind_eq_ok h
  obtain ⟨hour, hhour, h⟩ := bind_eq_ok h
  obtain ⟨-, h⟩ := check_bind_eq_ok h
  obtain ⟨hmonth, h⟩ := check_bind_eq_ok h
  obtain ⟨hdays, h⟩ := check_bind_eq_ok h
  obtain ⟨-, h⟩ := check_bind_eq_ok h
  obtain ⟨-, h⟩ := check_bind_eq_ok h
  obtain ⟨-, h⟩ := check_bind_eq_ok h
  dsimp only at h
  split at h
  next hdate =>
    split at h
    next htime =>
      refine ⟨⟨⟨year, (month - 1).toNat, day.toNat⟩, ⟨hour, s.clockOrMidnight.minute,
        s.clockOrMidnight.second, s.clockOrMidnight.millisecond⟩⟩, ⟨?_, s.clockOrMidnight.hour, rfl,
        hhour⟩, ⟨hdate.1, htime⟩, hdate.2, (Except.ok.inj h).symm⟩
      dsimp only at hmonth hdays ⊢
      rw [hday, Int.toNat_of_nonneg (by omega), Int.toNat_of_nonneg (by omega), Int.sub_add_cancel]
    next => contradiction
  next => contradiction

/-- **Parts within their bounds are rejected for one of them**, and never as a whole: once each part
is in range, the time of day exists. -/
theorem millis_error (hs : s.Bounded) {e : Error} (h : s.millis = .error e) : e.IsOfParts := by
  rcases millis_error_cases hs h with h | ⟨d, field, value, -, rfl, hblame⟩
  · rcases calendarDay_error h with ⟨text, rfl⟩ | ⟨field, hfield, rfl⟩
    · trivial
    · exact hfield
  · rcases hblame with hrange | ⟨-, rfl, -⟩
    · exact hrange.mem_checkedFields
    · simp [Error.IsOfParts]

end Scan

/-! ## 2. Accepted and rejected texts -/

/-- An accepted text is one whose scan ends in parts that denote its milliseconds.  This and
`Scan.exists_of_millis` tie what is read to what the text says. -/
theorem exists_run_of_readMillis {lenient : Bool} {text : List Char} {ms : Int}
    (h : readMillis lenient text = .ok ms) :
    text.all isBlank = false ∧ ∃ s, Scan.run lenient .initial (tokens true text) = .ok s ∧
      s.millis = .ok ms := by
  unfold readMillis at h
  split at h
  · contradiction
  next hblank => exact ⟨Bool.not_eq_true _ |>.mp hblank, bind_eq_ok h⟩

/-- **A rejected text is blank, or its scan stops, or one of its parts does not exist.** -/
theorem readMillis_error {lenient : Bool} {text : List Char} {e : Error}
    (h : readMillis lenient text = .error e) : e = .empty ∨ e.IsOfScan ∨ e.IsOfParts := by
  unfold readMillis at h
  split at h
  · exact .inl (Except.error.inj h).symm
  rcases bind_eq_error h with hrun | ⟨s, hrun, h⟩
  · exact .inr (.inl (Scan.run_error uniform_of_mem_tokens hrun))
  · exact .inr (.inr (Scan.millis_error (bounded_of_run_tokens hrun) h))

/-- **No text is rejected for the instant that it denotes.**  The only place that raises the error
asks whether the time of day exists, and each of its parts has been checked by then. -/
theorem readMillis_ne_unrepresentable (lenient : Bool) (text : List Char) :
    readMillis lenient text ≠ .error .unrepresentable := fun h => by
  rcases readMillis_error h with h | h | h
  · exact Error.noConfusion h
  · exact h
  · exact h

end DateText

namespace Instant

open DateText

/-! ## 3. Instants beyond the calendar -/

/-- The instant is a date and time of the calendar, moved by an offset of less than a day: late
where the offset is behind UTC, early where it is ahead. -/
structure Moved (x : Instant) (t : DateTime) (offset : Int) : Prop where
  valid : t.Valid
  year : HasYear t.date.year
  offset_lt : offset.natAbs < 24 * 60
  whole : x.millis.toInt? = some (t.toMillis - offset * millisPerMinute)

/-- What is moved by less than a day is still a number. -/
theorem toInt?_ofInt_moved {t : DateTime} (ht : t.Valid) (hyear : HasYear t.date.year)
    {offset : Int} (hoffset : offset.natAbs < 24 * 60) :
    (Double.ofInt (t.toMillis - offset * millisPerMinute)).toInt? =
      some (t.toMillis - offset * millisPerMinute) := by
  have hbounds := DateTime.toMillis_bounds ht hyear
  rw [firstMillis_eq, lastMillis_eq] at hbounds
  simp only [millisPerMinute]
  exact Double.toInt?_ofInt (.of_natAbs_le (by omega))

theorem ofMillis_of_toInt? {v : Double} {n : Int} (h : v.toInt? = some n) : ofMillis v = ⟨v⟩ := by
  rw [ofMillis, if_pos (Double.isFinite_of_toInt? h)]

theorem ofMillis_dateTime {t : DateTime} (ht : t.Valid) (hyear : HasYear t.date.year) :
    ofMillis (Double.ofInt t.toMillis) = ofDateTime t := by
  have hwhole := (toInt?_ofDateTime ht hyear).1
  rw [ofDateTime] at hwhole ⊢
  exact ofMillis_of_toInt? hwhole

theorem exists_readMillis_of_read {text : List Char} {x : Instant} (h : read text = .ok x) :
    ∃ ms, readMillis false text = .ok ms ∧ ofMillis (Double.ofInt ms) = x := by
  rw [read] at h
  cases hread : readMillis false text with
  | ok ms =>
    rw [hread] at h
    exact ⟨ms, rfl, Except.ok.inj h⟩
  | error e =>
    rw [hread] at h
    contradiction

/-- **An accepted text is read as the date and time that its scan shows**, moved by the zone offset
that the scan found. -/
theorem exists_moved_of_readMillis {lenient : Bool} {text : List Char} {ms : Int}
    (h : readMillis lenient text = .ok ms) :
    ∃ s t, Scan.run lenient .initial (tokens true text) = .ok s ∧ s.Shows t ∧
      (ofMillis (Double.ofInt ms)).Moved t (s.offsetMinutes.getD 0) := by
  obtain ⟨-, s, hrun, hmillis⟩ := exists_run_of_readMillis h
  obtain ⟨t, hshows, ht, hyear, rfl⟩ := Scan.exists_of_millis hmillis
  have hoffset := (bounded_of_run_tokens hrun).offset_lt
  have hms := toInt?_ofInt_moved ht hyear hoffset
  refine ⟨s, t, hrun, hshows, ht, hyear, hoffset, ?_⟩
  rw [ofMillis_of_toInt? hms]
  exact hms

/-- A text is empty exactly where there are no fields: no layout writes nothing. -/
theorem text_eq_nil_iff (x : Instant) (layout : Layout) :
    x.text layout = [] ↔ x.dateTime? = none := by
  unfold text
  cases x.dateTime? with
  | none => simp
  | some t =>
    have hwrite := write_not_blank layout t
    simp only [reduceCtorEq, iff_false]
    intro hnil
    rw [hnil] at hwrite
    contradiction

/-- **A text that is read denotes the date and time that its scan shows, moved by the zone offset
that the scan found**, so an instant less than a day from the calendar.  The instant has fields, and
a text in every layout, exactly while it lies within.  Either reading sets it all the same: there is
no error for an instant beyond the calendar. -/
theorem read_near_calendar (text : List Char) :
    read text ≠ .error .unrepresentable ∧
      ∀ x, read text = .ok x → parse text = x ∧ ∃ s t,
        Scan.run false .initial (tokens true text) = .ok s ∧ s.Shows t ∧
        x.Moved t (s.offsetMinutes.getD 0) ∧
        (x.dateTime? = none ↔
          ¬(firstMillis ≤ t.toMillis - s.offsetMinutes.getD 0 * millisPerMinute ∧
            t.toMillis - s.offsetMinutes.getD 0 * millisPerMinute ≤ lastMillis)) ∧
        ∀ layout, x.text layout = [] ↔ x.dateTime? = none := by
  refine ⟨fun h => ?_, fun x h => ?_⟩
  · exact readMillis_ne_unrepresentable false text (map_eq_error h)
  obtain ⟨ms, hread, hx⟩ := exists_readMillis_of_read h
  have hparse : parse text = x := by
    rw [parse, readMillis_lenient_of_ok hread, ← hx]
  obtain ⟨s, t, hrun, hshows, hmoved⟩ := exists_moved_of_readMillis hread
  rw [hx] at hmoved
  exact ⟨hparse, s, t, hrun, hshows, hmoved,
    dateTime?_eq_none_iff (Double.floor?_of_toInt? hmoved.whole), text_eq_nil_iff x⟩

/-- The last minute of the calendar, in a zone an hour behind and in one an hour ahead. -/
theorem read_near_calendar_end :
    let late := "262142-12-31T23:59-01:00".toList
    let early := "262142-12-31T23:59+01:00".toList
    (∃ x, read late = .ok x ∧ parse late = x ∧ x.text .sql = []) ∧
      ∃ x, read early = .ok x ∧ parse early = x ∧ x.text .sql ≠ [] := by
  intro late early
  have hlate : read late = .ok ⟨Double.ofInt (lastMillis + 3540001)⟩ := by decide +kernel
  have hearly : read early = .ok ⟨Double.ofInt (lastMillis - 3659999)⟩ := by decide +kernel
  obtain ⟨hparse, s, t, -, -, -, -, htext⟩ := (read_near_calendar late).2 _ hlate
  obtain ⟨hparse', s', t', -, -, -, -, htext'⟩ := (read_near_calendar early).2 _ hearly
  refine ⟨⟨_, hlate, hparse, (htext .sql).mpr ?_⟩, ⟨_, hearly, hparse', fun hnil => ?_⟩⟩
  · decide +kernel
  · exact absurd ((htext' .sql).mp hnil) (by decide +kernel)

/-- **An instant can be read that the calendar does not have**: midnight of the first day, in a zone
a minute ahead. -/
theorem read_beyond_calendar :
    ∃ x, read "-262143-01-01T00:00+00:01".toList = .ok x ∧
      parse "-262143-01-01T00:00+00:01".toList = x ∧ x.dateTime? = none ∧
      ∀ layout, x.text layout = [] := by
  have hread : read "-262143-01-01T00:00+00:01".toList =
      .ok ⟨Double.ofInt (firstMillis - 60000)⟩ := by decide +kernel
  have hfields : dateTime? ⟨Double.ofInt (firstMillis - 60000)⟩ = none := by decide +kernel
  exact ⟨_, hread, by decide +kernel, hfields, fun layout => (text_eq_nil_iff _ layout).mpr hfields⟩

end Instant
end Interchange
