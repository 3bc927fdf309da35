/-
# Composing an instant without rounding

`ofComponents` adds binary numbers from the left, and single terms can lie far outside the range in
which every integer is a number.  The sum is exact all the same: the larger the unit of a term, the
more zeros end its count of milliseconds in binary, and the two smallest terms are too small to
carry an exact sum out of the range.

* `toInt?_partialSum`, `toInt?_ofComponents`: a sum inside the calendar is not rounded;
* `isEmpty_ofComponents_iff`: when there is none;
* `ofComponents_exact`: what all components are composed to.
-/
import Interchange.Instant.Arithmetic
import Interchange.Proofs.Calendar.Order
import Interchange.Proofs.Double.Zero

namespace Interchange

open Calendar

/-! ## 1. Milliseconds of the calendar -/

theorem Calendar.millis_bounds {ms : Int} (h : firstMillis ≤ ms ∧ ms ≤ lastMillis) :
    ms.natAbs ≤ 2 ^ 53 := by
  rw [firstMillis_eq, lastMillis_eq] at h
  omega

theorem Calendar.DateTime.toMillis_bounds {t : DateTime} (ht : t.Valid) (hy : HasYear t.date.year) :
    firstMillis ≤ t.toMillis ∧ t.toMillis ≤ lastMillis := by
  rw [← hasYear_ofMillis_iff, DateTime.ofMillis_toMillis ht]
  exact hy

/-- **Each millisecond of the calendar is a number.** -/
theorem Calendar.fits_millis {ms : Int} (h : firstMillis ≤ ms ∧ ms ≤ lastMillis) :
    Double.Fits ms := .of_natAbs_le (millis_bounds h)

namespace Instant

theorem isEmpty_of_toInt? {x : Instant} {n : Int} (hx : x.millis.toInt? = some n) :
    x.isEmpty = false := by
  obtain ⟨f, hf, -⟩ := Double.toInt?_eq_some_iff.mp hx
  rw [isEmpty, hf]
  rfl

theorem equals_of_toInt? {x y : Instant} {n : Int} (hx : x.millis.toInt? = some n)
    (hy : y.millis.toInt? = some n) : x.equals y = true := by
  rw [equals, Double.equals_of_toInt? hx hy, Bool.or_true]

/-! ## 2. The exact sum -/

/-- The first day of the month that the components name, the months carried into years. -/
def Components.monthStart (c : Components) : Date :=
  ⟨c.year.toInt + c.month.toInt / 12, (c.month.toInt % 12).toNat, 1⟩

/-- The components as one exact count of milliseconds, which `ofComponents` adds up in doubles. -/
def Components.total (c : Components) : Int :=
  DateTime.toMillis ⟨c.monthStart, .midnight⟩ + (c.day.toInt - 1) * millisPerDay +
    c.hour.toInt * millisPerHour + c.minute.toInt * millisPerMinute +
    c.second.toInt * millisPerSecond + c.millisecond.toInt

theorem Components.valid_monthStart (c : Components) : c.monthStart.Valid := by
  have hmonth : (c.month.toInt % 12).toNat < 12 := by omega
  exact ⟨hmonth, Nat.le_refl 1, one_le_monthLength _ hmonth⟩

theorem int32_bounds (n : Int32) : -0x80000000 ≤ n.toInt ∧ n.toInt < 0x80000000 :=
  ⟨n.le_toInt, n.toInt_lt⟩

theorem toInt?_ofInt32 (n : Int32) : (Double.ofInt n.toInt).toInt? = some n.toInt := by
  have hn := int32_bounds n
  exact Double.toInt?_ofInt (.of_natAbs_le (by omega))

theorem toInt?_span (n : Int32) (unit : Nat) (h : unit ≤ millisPerHour) :
    (span n unit).toInt? = some (n.toInt * unit) := by
  have hn := int32_bounds n
  simp only [millisPerHour] at h
  refine Double.toInt?_mul (toInt?_ofInt32 n) (Double.toInt?_ofInt (.of_natAbs_le (by omega)))
    (.of_natAbs_le ?_)
  rw [Int.natAbs_mul]
  calc n.toInt.natAbs * (unit : Int).natAbs ≤ 0x80000000 * 3600000 :=
        Nat.mul_le_mul (by omega) (by omega)
    _ ≤ 2 ^ 53 := by decide

/-- A count of days in milliseconds is exact: it ends in ten binary zeros. -/
theorem toInt?_mul_millisPerDay {v : Double} {days : Int} (hv : v.toInt? = some days)
    (h : days.natAbs ≤ 0x80000001) :
    (v * Double.ofInt millisPerDay).toInt? = some (days * millisPerDay) := by
  refine Double.toInt?_mul hv (Double.toInt?_ofInt (.of_natAbs_le (by decide)))
    (.of_eq_mul (m := days * 84375) 10 ?_ (by omega) (by decide))
  simp only [millisPerDay]
  omega

theorem toInt?_days (n : Int32) :
    ((Double.ofInt n.toInt - Double.ofInt 1) * Double.ofInt millisPerDay).toInt? =
      some ((n.toInt - 1) * millisPerDay) := by
  have hn := int32_bounds n
  refine toInt?_mul_millisPerDay ?_ (by omega)
  exact Double.toInt?_sub (toInt?_ofInt32 n)
    (Double.toInt?_ofInt (n := 1) (.of_natAbs_le (by decide))) (.of_natAbs_le (by omega))

def Components.start (c : Components) : Int := DateTime.toMillis ⟨c.monthStart, .midnight⟩

/-- What is added to the start of the month, one after the other, in the order of `compose`. -/
def Components.terms (c : Components) : List Double :=
  [(Double.ofInt c.day.toInt - Double.ofInt 1) * Double.ofInt millisPerDay,
    span c.hour millisPerHour, span c.minute millisPerMinute, span c.second millisPerSecond,
    Double.ofInt c.millisecond.toInt]

/-- The milliseconds of each term, as integers. -/
def Components.counts (c : Components) : List Int :=
  [(c.day.toInt - 1) * millisPerDay, c.hour.toInt * millisPerHour,
    c.minute.toInt * millisPerMinute, c.second.toInt * millisPerSecond, c.millisecond.toInt]

theorem Components.total_eq (c : Components) : c.total = c.counts.foldl (· + ·) c.start := rfl

/-- The terms are added from the left. -/
theorem millis_ofComponents {c : Components} (hy : HasYear c.monthStart.year) :
    (ofComponents c).millis = c.terms.foldl (· + ·) (Double.ofInt c.start) := by
  have hyear : HasYear (c.year.toInt + c.month.toInt / 12) := hy
  have hstart : c.start = DateTime.toMillis ⟨⟨c.year.toInt + c.month.toInt / 12,
    (c.month.toInt % 12).toNat, 1⟩, .midnight⟩ := rfl
  rw [Components.terms, List.foldl_cons, List.foldl_cons, List.foldl_cons, List.foldl_cons,
    List.foldl_cons, List.foldl_nil, hstart]
  simp only [ofComponents, hyear, if_true]

/-- **Each term is exact**, for all components of 32 bits: the days end in ten binary zeros, and the
others are below 2 ^ 53. -/
theorem Components.exact_terms (c : Components) :
    List.Forall₂ (fun v n => v.toInt? = some n) c.terms c.counts :=
  .cons (toInt?_days c.day) <| .cons (toInt?_span c.hour _ (by decide)) <|
    .cons (toInt?_span c.minute _ (by decide)) <| .cons (toInt?_span c.second _ (by decide)) <|
      .cons (toInt?_ofInt32 c.millisecond) .nil

/-- **What is added up on the way to a sum inside the calendar fits.**  Sums of days end in ten
binary zeros, with hours in seven and with minutes in five, and seconds and milliseconds are too few
to lead back from outside 2 ^ 53. -/
theorem Components.fits_counts {c : Components} (hy : HasYear c.monthStart.year)
    (h : firstMillis ≤ c.total ∧ c.total ≤ lastMillis) (k : Nat) :
    Double.Fits ((c.counts.take k).foldl (· + ·) c.start) := by
  have hstart := DateTime.toMillis_bounds (t := ⟨c.monthStart, .midnight⟩)
    ⟨c.valid_monthStart, show Time.midnight.Valid by decide⟩ hy
  have hbase : c.start = c.monthStart.dayNumber * 86400000 := by
    simp [start, DateTime.toMillis, Time.midnight, Time.toMillis, millisPerDay]
  change firstMillis ≤ c.start ∧ c.start ≤ lastMillis at hstart
  have hday := int32_bounds c.day
  have hhour := int32_bounds c.hour
  have hminute := int32_bounds c.minute
  have hsecond := int32_bounds c.second
  have hmillisecond := int32_bounds c.millisecond
  rw [firstMillis_eq, lastMillis_eq] at h hstart
  rw [total_eq] at h
  simp only [counts, List.foldl_cons, List.foldl_nil, hbase] at h hstart ⊢
  generalize c.monthStart.dayNumber = days at *
  simp only [millisPerDay, millisPerHour, millisPerMinute, millisPerSecond] at *
  rcases k with _ | _ | _ | _ | _ | k <;>
    simp only [List.take_zero, List.take_succ_cons, List.take_nil, List.foldl_cons, List.foldl_nil]
  · exact .of_natAbs_le (by omega)
  · exact .of_eq_mul (m := (days + c.day.toInt - 1) * 84375) 10 (by omega) (by omega) (by decide)
  · exact .of_eq_mul (m := (days + c.day.toInt - 1) * 675000 + c.hour.toInt * 28125) 7
      (by omega) (by omega) (by decide)
  · exact .of_eq_mul (m := (days + c.day.toInt - 1) * 2700000 + c.hour.toInt * 112500 +
      c.minute.toInt * 1875) 5 (by omega) (by omega) (by decide)
  · exact .of_natAbs_le (by omega)
  · exact .of_natAbs_le (by omega)

section Sum

variable {c : Components}

/-- No partial sum of a sum inside the calendar is rounded.  The days may lead far out, but a sum
that the smaller terms bring back inside was near it before. -/
theorem toInt?_partialSum (hy : HasYear c.monthStart.year)
    (h : firstMillis ≤ c.total ∧ c.total ≤ lastMillis) (k : Nat) :
    ((c.terms.take k).foldl (· + ·) (Double.ofInt c.start)).toInt? =
      some ((c.counts.take k).foldl (· + ·) c.start) := by
  have hfits := c.fits_counts hy h
  refine Double.toInt?_foldl_add (List.forall₂_take k c.exact_terms)
    (Double.toInt?_ofInt (hfits 0)) fun j => ?_
  rw [List.take_take]
  exact hfits _

/-- **A sum of components inside the calendar is stored exactly**, however large single terms
are. -/
theorem toInt?_ofComponents (hy : HasYear c.monthStart.year)
    (h : firstMillis ≤ c.total ∧ c.total ≤ lastMillis) :
    (ofComponents c).millis.toInt? = some c.total := by
  rw [millis_ofComponents hy, c.total_eq]
  exact toInt?_partialSum hy h 5

/-- **Nothing is left exactly where the calendar does not have the year.**  However large the terms
are, they have a sum. -/
theorem isEmpty_ofComponents_iff :
    (ofComponents c).isEmpty = true ↔ ¬HasYear c.monthStart.year := by
  constructor
  · intro hempty hy
    rw [isEmpty, millis_ofComponents hy,
      Double.isNaN_foldl_add c.exact_terms (Double.isNaN_ofInt _)] at hempty
    contradiction
  · intro hy
    have hyear : ¬HasYear (c.year.toInt + c.month.toInt / 12) := hy
    simp only [ofComponents, hyear, if_false]
    rfl

end Sum

/-! ## 3. All components -/

/-- **What components of 32 bits are composed to.**  Nothing exactly where the calendar does not
have the year in which their month lies.  Otherwise the start of that month, to which one exact term
after the other is added; and wherever the exact sum of all lies inside the calendar, neither it nor
a sum on the way is rounded. -/
theorem ofComponents_exact (c : Components) :
    ((ofComponents c).isEmpty = true ↔ ¬HasYear (c.year.toInt + c.month.toInt / 12)) ∧
      (HasYear (c.year.toInt + c.month.toInt / 12) →
        (ofComponents c).millis = c.terms.foldl (· + ·) (Double.ofInt c.start) ∧
          List.Forall₂ (fun v n => v.toInt? = some n) c.terms c.counts ∧
          (firstMillis ≤ c.total ∧ c.total ≤ lastMillis →
            (ofComponents c).millis.toInt? = some c.total ∧
              ∀ k, ((c.terms.take k).foldl (· + ·) (Double.ofInt c.start)).toInt? =
                some ((c.counts.take k).foldl (· + ·) c.start))) := by
  refine ⟨isEmpty_ofComponents_iff, fun hy => ⟨millis_ofComponents hy, c.exact_terms, fun h => ?_⟩⟩
  exact ⟨toInt?_ofComponents hy h, toInt?_partialSum hy h⟩

/-- Ninety million days lead beyond 2 ^ 53, and hours and minutes lead back. -/
theorem ofComponents_exact_cancelling :
    let c : Components := ⟨262142, 11, 90000001, -2147483648, -2147483648, 0, 0⟩
    HasYear (c.year.toInt + c.month.toInt / 12) ∧
      (firstMillis ≤ c.total ∧ c.total ≤ lastMillis) ∧
      (ofComponents c).isEmpty = false ∧
      ((c.terms.take 1).foldl (· + ·) (Double.ofInt c.start)).toInt? = some 15986264198400000 ∧
      (ofComponents c).millis.toInt? = some 8126474046720000 := by
  intro c
  have hy : HasYear (c.year.toInt + c.month.toInt / 12) := by decide +kernel
  have htotal : c.total = 8126474046720000 := by decide +kernel
  have hdays : (c.counts.take 1).foldl (· + ·) c.start = 15986264198400000 := by decide +kernel
  have hinside : firstMillis ≤ c.total ∧ c.total ≤ lastMillis := by
    rw [htotal]
    decide +kernel
  obtain ⟨hempty, hsum⟩ := ofComponents_exact c
  obtain ⟨-, -, hexact⟩ := hsum hy
  obtain ⟨hmillis, hpartial⟩ := hexact hinside
  refine ⟨hy, hinside, ?_, ?_, ?_⟩
  · rw [← Bool.not_eq_true, hempty, not_not]
    exact hy
  · rw [hpartial 1, hdays]
  · rw [hmillis, htotal]

end Instant
end Interchange
