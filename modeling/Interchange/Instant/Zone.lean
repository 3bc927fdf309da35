/-
# Time zones

A zone gives, for an instant in UTC, how far its wall clock is ahead.  Reading a wall clock back
takes two steps, because the offset is known for instants in UTC only: a first offset gives an
estimate, and the offset at the estimate is the one that counts.

`Zone` is any source of offsets, `offset_millis` its only operation; `toLocal` and `toUtc` are
`to_local_in` and `to_utc_in`.  The zone of the host is one such source and is left out, because it
reads the host's settings.  `fixed` is the constant zone `east`, and `switching` is there so that a
zone whose offset changes can be written down.
-/
import Interchange.Instant.Basic

namespace Interchange

/-- The milliseconds by which a wall clock is ahead of UTC at an instant.  Nothing is asked of them:
a source of offsets may answer anything, and a result that is no number is the empty instant. -/
structure Zone where
  offset : Double → Double

namespace Zone

def minutesToMillis (minutes : Int32) : Double :=
  Double.ofInt minutes.toInt * Double.ofInt Calendar.millisPerMinute

/-- A zone that is always the same number of minutes ahead. -/
def fixed (minutes : Int32) : Zone := ⟨fun _ => minutesToMillis minutes⟩

def utc : Zone := fixed 0

/-- A zone whose offset changes at given instants: the last listed change that is not after the
instant counts, and the base offset before all of them. -/
def switching (base : Int32) (changes : List (Double × Int32)) : Zone :=
  ⟨fun instant =>
    minutesToMillis (((changes.filter (·.1.le instant)).getLast?.map (·.2)).getD base)⟩

end Zone

namespace Instant

/-- The wall clock of a zone at an instant, as the instant at which UTC would read the same. -/
def toLocal (x : Instant) (zone : Zone) : Instant :=
  if x.isEmpty then x else ⟨x.millis + zone.offset x.millis⟩

/-- The instant at which the wall clock of a zone reads `x`.  The offset is asked for twice: at `x`
itself, as if `x` were in UTC, and at the estimate that this gives. -/
def toUtc (x : Instant) (zone : Zone) : Instant :=
  if x.isEmpty then x
  else ⟨x.millis - zone.offset (x.millis - zone.offset x.millis)⟩

/-- Eight hours east and back, and a zone that moves ahead by an hour at the epoch. -/
example :
    ((ofMillis (Double.ofInt 0)).toLocal (.fixed 480)).millis = Double.ofInt 28800000 ∧
    (((ofMillis (Double.ofInt 0)).toLocal (.fixed 480)).toUtc (.fixed 480)).millis =
      Double.ofInt 0 ∧
    (Zone.switching 0 [(Double.ofInt 0, 60)]).offset (Double.ofInt 0) = Double.ofInt 3600000 ∧
    (Zone.switching 0 [(Double.ofInt 0, 60)]).offset (Double.ofInt (-1)) = Double.ofInt 0 := by
  decide +kernel

end Instant
end Interchange
