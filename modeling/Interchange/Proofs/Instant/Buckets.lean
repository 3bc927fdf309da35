/-
# Instants in buckets of local time

Instants are put together by the local date in a zone, or by a coarser or finer part of it, in three
moves: to the wall clock, back to the start of the part, and to UTC again.  In a zone with a fixed
offset the bucket is the instant at which the part began there.  It is known from the local fields
down to the part, so two instants are in one bucket exactly when these are the same.

A reading beyond 2 ^ 53 milliseconds would be rounded, but the calendar ends before that, so no
reading with fields was rounded; neither is the way back, since no offset reaches that far.

* `toInt?_toLocal_fixed`: readings that have fields are exact;
* `bucket_eq`: the bucket is the start of the part, read back;
* `bucket_spec`: what a bucket satisfies, and when two instants have the same.
-/
import Interchange.Proofs.Instant.Starts
import Interchange.Proofs.Instant.WallClock

namespace Interchange

open Calendar

/-! ## 1. Fields down to a part -/

theorem Calendar.DateTime.startOf_eq_startOf_iff {t u : DateTime} {part : Instant.Part} :
    t.startOf part = u.startOf part ↔
      t.parts.take part.depth = u.parts.take part.depth := by
  constructor
  · intro h
    rw [← take_parts_startOf t, h, take_parts_startOf]
  · intro h
    refine eq_of_parts_eq ?_
    rw [parts_startOf, parts_startOf, h]

namespace Instant

/-- The instant at which the part began on the wall clock of a zone: there, cut back, and back
again. -/
def bucket (x : Instant) (zone : Zone) (part : Part) : Instant :=
  ((x.toLocal zone).startOf part).toUtc zone

section Fixed

variable {minutes : Int32} {part : Part}

/-! ## 2. Readings in a fixed zone -/

theorem millis_toLocal_fixed {x : Instant} (hx : x.isEmpty = false) (minutes : Int32) :
    (x.toLocal (.fixed minutes)).millis = x.millis + Zone.minutesToMillis minutes := by
  rw [toLocal, hx]
  rfl

theorem millis_toUtc_fixed {x : Instant} (hx : x.isEmpty = false) (minutes : Int32) :
    (x.toUtc (.fixed minutes)).millis = x.millis - Zone.minutesToMillis minutes := by
  rw [toUtc, hx]
  rfl

/-- **A reading that has fields is exact.**  The instant itself may lie beyond the calendar, by the
offset of the zone. -/
theorem toInt?_toLocal_fixed {x : Instant} {n : Int} {t : DateTime}
    (hx : x.millis.toInt? = some n) (ht : (x.toLocal (.fixed minutes)).dateTime? = some t) :
    (x.toLocal (.fixed minutes)).millis.toInt? = some (n + minutes.toInt * millisPerMinute) := by
  obtain ⟨f, hfloor, hfields⟩ := Option.bind_eq_some_iff.mp ht
  obtain ⟨hrange, -⟩ := ofMillis?_eq_some_iff.mp hfields
  rw [firstMillis_eq, lastMillis_eq] at hrange
  rw [millis_toLocal_fixed (isEmpty_of_toInt? hx)] at hfloor ⊢
  exact Double.toInt?_add_of_floor? hx (Zone.toInt?_minutesToMillis minutes) hfloor (by omega)

variable {t : DateTime}

/-- **Fields are read back exactly.** -/
theorem toInt?_toUtc_fixed (ht : t.Valid) (hyear : HasYear t.date.year) (minutes : Int32) :
    ((ofDateTime t).toUtc (.fixed minutes)).millis.toInt? =
      some (t.toMillis - minutes.toInt * millisPerMinute) := by
  have hwhole := (toInt?_ofDateTime ht hyear).1
  have hbounds := DateTime.toMillis_bounds ht hyear
  have hminutes := int32_bounds minutes
  rw [firstMillis_eq, lastMillis_eq] at hbounds
  rw [millis_toUtc_fixed (isEmpty_of_toInt? hwhole)]
  refine Double.toInt?_sub hwhole (Zone.toInt?_minutesToMillis minutes) (.of_natAbs_le ?_)
  simp only [millisPerMinute]
  omega

/-- **Fields that are read back show again.** -/
theorem toInt?_toLocal_toUtc_fixed (ht : t.Valid) (hyear : HasYear t.date.year) (minutes : Int32) :
    (((ofDateTime t).toUtc (.fixed minutes)).toLocal (.fixed minutes)).millis.toInt? =
      some t.toMillis := by
  have hutc := toInt?_toUtc_fixed ht hyear minutes
  have hsum := Double.toInt?_add hutc (Zone.toInt?_minutesToMillis minutes)
  rw [Int.sub_add_cancel] at hsum
  rw [millis_toLocal_fixed (isEmpty_of_toInt? hutc)]
  exact hsum (fits_millis (DateTime.toMillis_bounds ht hyear))

theorem dateTime?_toLocal_toUtc_fixed (ht : t.Valid) (hyear : HasYear t.date.year)
    (minutes : Int32) :
    (((ofDateTime t).toUtc (.fixed minutes)).toLocal (.fixed minutes)).dateTime? = some t := by
  rw [dateTime?_of_whole (toInt?_toLocal_toUtc_fixed ht hyear minutes)
    (DateTime.toMillis_bounds ht hyear), DateTime.ofMillis_toMillis ht]

/-! ## 3. The bucket of an instant -/

section Reading

variable {x : Instant} {n : Int}

/-- The fields of a whole reading are those of a date and time of the calendar. -/
theorem fields_of_reading (hx : x.millis.toInt? = some n)
    (ht : (x.toLocal (.fixed minutes)).dateTime? = some t) :
    t.Valid ∧ HasYear t.date.year ∧ t.toMillis = n + minutes.toInt * millisPerMinute := by
  have hlocal := toInt?_toLocal_fixed hx ht
  obtain ⟨hrange, rfl⟩ := (dateTime?_eq_some_iff (Double.floor?_of_toInt? hlocal)).mp ht
  exact ⟨DateTime.valid_ofMillis _, (hasYear_ofMillis_iff _).mpr hrange,
    DateTime.toMillis_ofMillis _⟩

/-- **The bucket is the start of the part, read back**: with one offset, the way there and the way
back are moves by the same count. -/
theorem bucket_eq (hx : x.millis.toInt? = some n)
    (ht : (x.toLocal (.fixed minutes)).dateTime? = some t) (part : Part) :
    x.bucket (.fixed minutes) part = (ofDateTime (t.startOf part)).toUtc (.fixed minutes) := by
  rw [bucket, startOf_eq (toInt?_toLocal_fixed hx ht) ht]

end Reading

/-- Fields that are different are read back to different milliseconds. -/
theorem eq_of_equals_toUtc_fixed {t u : DateTime} (ht : t.Valid) (hyear : HasYear t.date.year)
    (hu : u.Valid) (hyear' : HasYear u.date.year)
    (h : ((ofDateTime t).toUtc (.fixed minutes)).equals ((ofDateTime u).toUtc (.fixed minutes)) =
      true) : t = u := by
  have hutc := toInt?_toUtc_fixed ht hyear minutes
  have hutc' := toInt?_toUtc_fixed hu hyear' minutes
  rw [equals, isEmpty_of_toInt? hutc, Bool.false_and, Bool.false_or] at h
  have hsame := Double.toInt?_eq_of_equals h
  rw [hutc, hutc', Option.some.injEq] at hsame
  have hmillis : t.toMillis = u.toMillis := by omega
  rw [← DateTime.ofMillis_toMillis ht, hmillis, DateTime.ofMillis_toMillis hu]

/-- **What the bucket of an instant satisfies**, for a whole millisecond whose reading in the zone
has fields.  It is not after the instant, and it is its own bucket.  Its local fields are those of
the instant down to the part, and their start below it.  Another such instant is in the same bucket,
as a datum or as an equal instant, exactly if its local fields are the same down to the part. -/
theorem bucket_spec {x : Instant} {n : Int} {t : DateTime} (hx : x.millis.toInt? = some n)
    (ht : (x.toLocal (.fixed minutes)).dateTime? = some t) (part : Part) :
    let zone := Zone.fixed minutes
    let y := x.bucket zone part
    y.millis.le x.millis = true ∧
      y.bucket zone part = y ∧
      (∃ u, (y.toLocal zone).dateTime? = some u ∧
        u.parts.take part.depth = t.parts.take part.depth ∧ u.IsStart part) ∧
      ∀ (z : Instant) (m : Int) (w : DateTime), z.millis.toInt? = some m →
        (z.toLocal zone).dateTime? = some w →
        (y = z.bucket zone part ↔ t.parts.take part.depth = w.parts.take part.depth) ∧
          (y.equals (z.bucket zone part) = true ↔
            t.parts.take part.depth = w.parts.take part.depth) := by
  intro zone y
  obtain ⟨hvalid, hyear, hmillis⟩ := fields_of_reading hx ht
  have hvalid' := DateTime.valid_startOf hvalid part
  have hyear' := DateTime.hasYear_startOf hyear part
  have hy : y = (ofDateTime (t.startOf part)).toUtc (.fixed minutes) := bucket_eq hx ht part
  have hwhole := toInt?_toUtc_fixed hvalid' hyear' minutes
  have hfields := dateTime?_toLocal_toUtc_fixed hvalid' hyear' minutes
  rw [← hy] at hwhole hfields
  refine ⟨?_, ?_, ⟨_, hfields, DateTime.take_parts_startOf t part,
    DateTime.isStart_startOf t part⟩, fun z m w hz hw => ?_⟩
  · have hle := DateTime.toMillis_startOf_le t part
    exact (Double.le_iff_of_toInt? hwhole hx).mpr (by omega)
  · rw [bucket_eq hwhole hfields, DateTime.startOf_startOf, Part.coarser_self, hy]
  · obtain ⟨hwvalid, hwyear, -⟩ := fields_of_reading hz hw
    have hsame : t.startOf part = w.startOf part → y = z.bucket zone part := by
      intro hstart
      rw [hy, hstart, bucket_eq hz hw]
    have hequal : y.equals (z.bucket zone part) = true → t.startOf part = w.startOf part := by
      intro hequals
      rw [hy, bucket_eq hz hw] at hequals
      exact eq_of_equals_toUtc_fixed hvalid' hyear' (DateTime.valid_startOf hwvalid part)
        (DateTime.hasYear_startOf hwyear part) hequals
    rw [← DateTime.startOf_eq_startOf_iff]
    refine ⟨⟨fun h => hequal ?_, hsame⟩, hequal, fun h => ?_⟩
    · rw [← h]
      exact equals_refl y
    · rw [← hsame h]
      exact equals_refl y

/-- The first day of 1970 eight hours east begins before the epoch; its last millisecond is in the
same bucket, the next one in another. -/
theorem bucket_spec_new_year :
    let zone := Zone.fixed 480
    let x : Instant := ⟨Double.ofInt (-7200000)⟩
    let last : Instant := ⟨Double.ofInt 57599999⟩
    let next : Instant := ⟨Double.ofInt 57600000⟩
    x.bucket zone .day = ⟨Double.ofInt (-28800000)⟩ ∧
      (x.bucket zone .day).bucket zone .day = x.bucket zone .day ∧
      x.bucket zone .day = last.bucket zone .day ∧
      ¬(x.bucket zone .day).equals (next.bucket zone .day) = true := by
  intro zone x last next
  have hx : x.millis.toInt? = some (-7200000) := by decide +kernel
  have hlast : last.millis.toInt? = some 57599999 := by decide +kernel
  have hnext : next.millis.toInt? = some 57600000 := by decide +kernel
  have hfields : (x.toLocal zone).dateTime? = some ⟨⟨1970, 0, 1⟩, ⟨6, 0, 0, 0⟩⟩ := by
    decide +kernel
  have hfields' : (last.toLocal zone).dateTime? = some ⟨⟨1970, 0, 1⟩, ⟨23, 59, 59, 999⟩⟩ := by
    decide +kernel
  have hfields'' : (next.toLocal zone).dateTime? = some ⟨⟨1970, 0, 2⟩, .midnight⟩ := by
    decide +kernel
  obtain ⟨-, hagain, -, hsame⟩ := bucket_spec hx hfields .day
  refine ⟨by decide +kernel, hagain, (hsame last _ _ hlast hfields').1.mpr (by decide), fun h => ?_⟩
  exact absurd ((hsame next _ _ hnext hfields'').2.mp h) (by decide)

end Fixed

end Instant
end Interchange
