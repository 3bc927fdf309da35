/-
# Wall clocks of zones with two offsets

The offset of a zone is known for instants in UTC, so reading a wall clock back asks for it twice:
first at the reading, as if that were an instant in UTC, and then at the estimate that the first
answer leads to.  Where a zone has two offsets only, this always finds an instant that shows the
reading.  If the first answer is the offset that the reading was made with, the estimate is the
instant itself.  Otherwise it is the other offset, and the second answer can be either: with the
offset of the reading it leads to the instant, and with the other one to the estimate, where that
offset holds.

Nothing else about the zone matters, neither how often it changes nor when.  All counts are whole
milliseconds that fit into a number, so no sum is rounded; but a zero has two data, and a zone is
asked for its offset at a datum.

* `requery`: the two questions, on integers;
* `Zone.hasOffsets_switching`: zones that change between two offsets;
* `toLocal_toUtc_toLocal`: a reading that is read back shows again.
-/
import Interchange.Instant.Zone
import Interchange.Proofs.Instant.Composition

namespace Interchange

open Calendar

/-! ## 1. Offsets -/

namespace Zone

/-- At each whole millisecond the offset is one of two numbers of minutes.  When it is which is left
open, so the zone may change to and fro at any time, as daylight saving does. -/
def HasOffsets (zone : Zone) (a b : Int32) : Prop :=
  ∀ v ms, v.toInt? = some ms → (zone.offset v).toInt? = some (a.toInt * millisPerMinute) ∨
    (zone.offset v).toInt? = some (b.toInt * millisPerMinute)

def offsetAt (zone : Zone) (ms : Int) : Int := (zone.offset (Double.ofInt ms)).toInt?.getD 0

/-- The most that an offset can be, since its minutes have 32 bits. -/
def offsetLimit : Nat := 0x80000000 * millisPerMinute

theorem toInt?_minutesToMillis (minutes : Int32) :
    (minutesToMillis minutes).toInt? = some (minutes.toInt * millisPerMinute) :=
  Instant.toInt?_span minutes millisPerMinute (by decide)

/-- **A zone that changes between two offsets has them**, however often it changes.  So the
assumption on zones can be met, and by any list of changes. -/
theorem hasOffsets_switching {a b base : Int32} {changes : List (Double × Int32)}
    (hbase : base = a ∨ base = b) (hchanges : ∀ change ∈ changes, change.2 = a ∨ change.2 = b) :
    (switching base changes).HasOffsets a b := by
  intro v ms _
  have hcurrent : ∀ minutes : Int32, minutes = a ∨ minutes = b →
      (minutesToMillis minutes).toInt? = some (a.toInt * millisPerMinute) ∨
        (minutesToMillis minutes).toInt? = some (b.toInt * millisPerMinute) := by
    rintro minutes (rfl | rfl)
    · exact .inl (toInt?_minutesToMillis _)
    · exact .inr (toInt?_minutesToMillis _)
  refine hcurrent _ ?_
  cases hlast : (changes.filter (·.1.le v)).getLast? with
  | none => exact hbase
  | some change =>
    have hmem := List.mem_of_getLast? hlast
    exact hchanges change (List.mem_filter.mp hmem).1

end Zone

/-- The datum `v` is the integer `n`, and it is a minus zero only if `origin` is one. -/
structure Double.WholeFrom (origin v : Double) (n : Int) : Prop where
  whole : v.toInt? = some n
  sign : v = .zero true → origin = .zero true

namespace Double.WholeFrom

variable {origin v w : Double} {m n : Int}

theorem add (hv : origin.WholeFrom v m) (hw : w.toInt? = some n) (hfits : Fits (m + n)) :
    origin.WholeFrom (v + w) (m + n) where
  whole := toInt?_add hv.whole hw hfits
  sign h := hv.sign (eq_zero_true_of_add hv.whole hw hfits h)

theorem sub (hv : origin.WholeFrom v m) (hw : w.toInt? = some n) (hfits : Fits (m - n)) :
    origin.WholeFrom (v - w) (m - n) where
  whole := toInt?_sub hv.whole hw hfits
  sign h := hv.sign (eq_zero_true_of_sub hv.whole hw hfits h)

/-- Where the origin is no minus zero, the integer determines the datum. -/
theorem eq (hv : origin.WholeFrom v n) (hw : origin.WholeFrom w n) (h : origin ≠ .zero true) :
    v = w := by
  have hv0 : v.dropZeroSign = v := if_neg fun h0 => h (hv.sign h0)
  have hw0 : w.dropZeroSign = w := if_neg fun h0 => h (hw.sign h0)
  rw [← hv0, ← hw0, ← ofInt_of_toInt? hv.whole, ofInt_of_toInt? hw.whole]

end Double.WholeFrom

namespace Instant

section TwoOffsets

variable {zone : Zone} {a b : Int32} {origin v : Double} {ms : Int}

/-- A zone that does not tell the origin from its integer has the offset of the integer at each
datum that comes from it. -/
theorem toInt?_offset (hzone : zone.HasOffsets a b)
    (hsign : zone.offset origin.dropZeroSign = zone.offset origin) (hv : origin.WholeFrom v ms) :
    (zone.offset v).toInt? = some (zone.offsetAt ms) := by
  have hdatum : zone.offset (Double.ofInt ms) = zone.offset v := by
    rw [Double.ofInt_of_toInt? hv.whole]
    by_cases hzero : v = .zero true
    · rw [hzero, ← hv.sign hzero, hsign]
    · rw [Double.dropZeroSign, if_neg hzero]
  rw [Zone.offsetAt, hdatum]
  rcases hzone v ms hv.whole with h | h <;> rw [h, Option.getD_some]

/-- The offset at an integer that is a number is one of the two. -/
theorem offsetAt_eq (hzone : zone.HasOffsets a b) (hv : v.toInt? = some ms) :
    zone.offsetAt ms = a.toInt * millisPerMinute ∨
      zone.offsetAt ms = b.toInt * millisPerMinute := by
  have hms : (Double.ofInt ms).toInt? = some ms := by
    rw [Double.ofInt_of_toInt? hv, Double.toInt?_dropZeroSign, hv]
  unfold Zone.offsetAt
  rcases hzone _ ms hms with h | h
  · left
    rw [h, Option.getD_some]
  · right
    rw [h, Option.getD_some]

theorem offsetAt_le (hzone : zone.HasOffsets a b) (hv : v.toInt? = some ms) :
    (zone.offsetAt ms).natAbs ≤ Zone.offsetLimit := by
  have ha := int32_bounds a
  have hb := int32_bounds b
  simp only [Zone.offsetLimit, millisPerMinute]
  rcases offsetAt_eq hzone hv with h | h <;> simp only [millisPerMinute] at h <;> omega

/-! ## 2. Both directions, on integers -/

/-- **Two questions are enough.**  A reading is made with the offset at an instant; reading it back
asks at the reading and at the estimate.  If the second answer is the offset of the instant or that
of the first question, what is found shows the reading. -/
theorem requery {offset : Int → Int} {instant : Int} :
    let reading := instant + offset instant
    let estimate := reading - offset reading
    let found := reading - offset estimate
    offset estimate = offset instant ∨ offset estimate = offset reading →
      found + offset found = reading := by
  intro reading estimate found hanswer
  rcases hanswer with h | h
  · have hfound : found = instant := by
      change reading - offset estimate = instant
      rw [h]
      exact Int.add_sub_cancel instant (offset instant)
    rw [hfound]
  · have hfound : found = estimate := by
      change reading - offset estimate = reading - offset reading
      rw [h]
    rw [hfound, h]
    exact Int.sub_add_cancel reading (offset reading)

/-- With two offsets only, the second answer is the offset of the instant or that of the first
question: if these two are one, the estimate is the instant. -/
theorem offsetAt_estimate (hzone : zone.HasOffsets a b) {n : Int}
    (hbound : n.natAbs + 2 * Zone.offsetLimit ≤ 2 ^ 53) :
    let reading := n + zone.offsetAt n
    let estimate := reading - zone.offsetAt reading
    zone.offsetAt estimate = zone.offsetAt n ∨
      zone.offsetAt estimate = zone.offsetAt reading := by
  intro reading estimate
  have hn := Double.toInt?_ofInt (.of_natAbs_le (show n.natAbs ≤ 2 ^ 53 by omega))
  have hle := offsetAt_le hzone hn
  have hreading := Double.toInt?_ofInt (.of_natAbs_le (show reading.natAbs ≤ 2 ^ 53 by omega))
  have hle' := offsetAt_le hzone hreading
  have hestimate := Double.toInt?_ofInt (.of_natAbs_le (show estimate.natAbs ≤ 2 ^ 53 by omega))
  by_cases hsame : zone.offsetAt reading = zone.offsetAt n
  · left
    have hback : estimate = n := by
      change reading - zone.offsetAt reading = n
      rw [hsame]
      exact Int.add_sub_cancel n (zone.offsetAt n)
    rw [hback]
  · -- both offsets have been seen, so there is no other left for the estimate
    have h1 := offsetAt_eq hzone hn
    have h2 := offsetAt_eq hzone hreading
    have h3 := offsetAt_eq hzone hestimate
    generalize a.toInt * (millisPerMinute : Int) = first at h1 h2 h3
    generalize b.toInt * (millisPerMinute : Int) = second at h1 h2 h3
    omega

/-! ## 3. Both directions, on numbers -/

/-- The wall clock at a whole millisecond shows a whole millisecond. -/
theorem wholeFrom_toLocal (hzone : zone.HasOffsets a b)
    (hsign : zone.offset origin.dropZeroSign = zone.offset origin) {x : Instant} {n : Int}
    (hx : origin.WholeFrom x.millis n) (hbound : n.natAbs + Zone.offsetLimit ≤ 2 ^ 53) :
    origin.WholeFrom (x.toLocal zone).millis (n + zone.offsetAt n) := by
  have hle := offsetAt_le hzone hx.whole
  unfold toLocal
  rw [isEmpty_of_toInt? hx.whole, if_neg Bool.false_ne_true]
  exact hx.add (toInt?_offset hzone hsign hx) (.of_natAbs_le (by omega))

/-- A reading in whole milliseconds is read back to a whole millisecond. -/
theorem wholeFrom_toUtc (hzone : zone.HasOffsets a b)
    (hsign : zone.offset origin.dropZeroSign = zone.offset origin) {x : Instant} {n : Int}
    (hx : origin.WholeFrom x.millis n) (hbound : n.natAbs + Zone.offsetLimit ≤ 2 ^ 53) :
    origin.WholeFrom (x.toUtc zone).millis (n - zone.offsetAt (n - zone.offsetAt n)) := by
  have hle := offsetAt_le hzone hx.whole
  have hestimate := hx.sub (toInt?_offset hzone hsign hx) (.of_natAbs_le (by omega))
  have hle' := offsetAt_le hzone hestimate.whole
  unfold toUtc
  rw [isEmpty_of_toInt? hx.whole, if_neg Bool.false_ne_true]
  exact hx.sub (toInt?_offset hzone hsign hestimate) (.of_natAbs_le (by omega))

/-- **At most two instants have one reading**: each offset leaves a single candidate.  Where the
estimate goes wrong, it goes to the other one. -/
theorem eq_or_eq_of_reading (hzone : zone.HasOffsets a b) {z reading : Instant} {m l : Int}
    (hz : z.millis.toInt? = some m) (hbound : m.natAbs + Zone.offsetLimit ≤ 2 ^ 53)
    (hl : reading.millis.toInt? = some l) (h : (z.toLocal zone).equals reading = true) :
    m = l - a.toInt * millisPerMinute ∨ m = l - b.toInt * millisPerMinute := by
  have hequal : (z.millis + zone.offset z.millis).equals reading.millis = true := by
    rw [toLocal, isEmpty_of_toInt? hz, if_neg Bool.false_ne_true, equals,
      isEmpty_of_toInt? hl, Bool.and_false, Bool.false_or] at h
    exact h
  have hsum := Double.toInt?_eq_of_equals hequal
  rw [hl] at hsum
  simp only [Zone.offsetLimit, millisPerMinute] at hbound
  have hshown : ∀ minutes : Int32,
      (zone.offset z.millis).toInt? = some (minutes.toInt * millisPerMinute) →
        m = l - minutes.toInt * millisPerMinute := by
    intro minutes hoffset
    have hminutes := int32_bounds minutes
    have hfits : Double.Fits (m + minutes.toInt * millisPerMinute) := by
      simp only [millisPerMinute]
      exact .of_natAbs_le (by omega)
    rw [Double.toInt?_add hz hoffset hfits] at hsum
    have hlocal := Option.some.inj hsum
    omega
  rcases hzone z.millis m hz with h | h
  · exact .inl (hshown a h)
  · exact .inr (hshown b h)

/-- **A reading of a wall clock that is read back shows again**, in every zone with two offsets and
for every whole millisecond of the calendar, on both sides of each change.  It is read back to the
instant that it was made at, unless another instant within twice the largest offset has the same
reading.  Only where that instant is a minus zero, the zone must not tell it from zero. -/
theorem toLocal_toUtc_toLocal (hzone : zone.HasOffsets a b) {x : Instant} {n : Int}
    (hx : x.millis.toInt? = some n) (hrange : firstMillis ≤ n ∧ n ≤ lastMillis)
    (hsign : zone.offset x.millis.dropZeroSign = zone.offset x.millis) :
    let reading := x.toLocal zone
    let found := reading.toUtc zone
    (found.toLocal zone).equals reading = true ∧
      (x.millis ≠ .zero true → found.toLocal zone = reading) ∧
      ((∀ (z : Instant) (m : Int), z.millis.toInt? = some m →
        (m - n).natAbs ≤ 2 * Zone.offsetLimit → (z.toLocal zone).equals reading = true →
        z.equals x = true) → found.equals x = true) := by
  intro reading found
  have hbound : n.natAbs + 3 * Zone.offsetLimit ≤ 2 ^ 53 := by
    rw [firstMillis_eq, lastMillis_eq] at hrange
    simp only [Zone.offsetLimit, millisPerMinute]
    omega
  have hreading : x.millis.WholeFrom reading.millis (n + zone.offsetAt n) :=
    wholeFrom_toLocal hzone hsign ⟨hx, id⟩ (by omega)
  have hle := offsetAt_le hzone hx
  have hfound : x.millis.WholeFrom found.millis _ :=
    wholeFrom_toUtc hzone hsign hreading (by omega)
  have hagain := requery (offsetAt_estimate hzone (n := n) (by omega))
  generalize n + zone.offsetAt n - zone.offsetAt (n + zone.offsetAt n -
    zone.offsetAt (n + zone.offsetAt n)) = m at hfound hagain
  have hle' := offsetAt_le hzone hfound.whole
  have hshown : x.millis.WholeFrom (found.toLocal zone).millis (n + zone.offsetAt n) := by
    rw [← hagain]
    exact wholeFrom_toLocal hzone hsign hfound (by omega)
  have hequal := equals_of_toInt? hshown.whole hreading.whole
  refine ⟨hequal, fun hzero => ?_, fun honly => ?_⟩
  · exact congrArg Instant.mk (hshown.eq hreading hzero)
  · exact honly found m hfound.whole (by omega) hequal

/-- Five hours behind, and four in summer.  The last millisecond before the first change is found
again; half an hour after the second change the wall clock reads what it read an hour before, and
that earlier instant is found. -/
theorem toLocal_toUtc_toLocal_summer :
    let zone := Zone.switching (-300)
      [(Double.ofInt 1615705200000, -240), (Double.ofInt 1636264800000, -300)]
    let x : Instant := ⟨Double.ofInt 1615705199999⟩
    let u : Instant := ⟨Double.ofInt 1636266600000⟩
    ((x.toLocal zone).toUtc zone).equals x = true ∧
      (((u.toLocal zone).toUtc zone).toLocal zone).equals (u.toLocal zone) = true ∧
      (u.toLocal zone).toUtc zone = ⟨Double.ofInt 1636263000000⟩ := by
  intro zone x u
  have hzone : zone.HasOffsets (-300) (-240) :=
    Zone.hasOffsets_switching (.inl rfl) (by decide +kernel)
  have hx : x.millis.toInt? = some 1615705199999 := by decide +kernel
  have hu : u.millis.toInt? = some 1636266600000 := by decide +kernel
  have hreading : (x.toLocal zone).millis.toInt? = some 1615687199999 := by decide +kernel
  have honly : ∀ (z : Instant) (m : Int), z.millis.toInt? = some m →
      (m - 1615705199999).natAbs ≤ 2 * Zone.offsetLimit →
      (z.toLocal zone).equals (x.toLocal zone) = true → z.equals x = true := by
    intro z m hz hnear hsame
    simp only [Zone.offsetLimit, millisPerMinute] at hnear
    rcases eq_or_eq_of_reading hzone hz
      (by simp only [Zone.offsetLimit, millisPerMinute]; omega) hreading hsame with hm | hm
    · rw [hm] at hz
      exact equals_of_toInt? hz hx
    · -- the summer offset would have to hold an hour before the change already
      rw [hm] at hz
      have hearlier : z = ⟨Double.ofInt 1615701599999⟩ :=
        congrArg Instant.mk (Double.eq_ofInt_of_toInt? hz (by decide))
      rw [hearlier] at hsame
      exact absurd hsame (by decide +kernel)
  exact ⟨(toLocal_toUtc_toLocal hzone hx (by decide +kernel) (by decide +kernel)).2.2 honly,
    (toLocal_toUtc_toLocal hzone hu (by decide +kernel) (by decide +kernel)).1,
    by decide +kernel⟩

end TwoOffsets

end Instant
end Interchange
