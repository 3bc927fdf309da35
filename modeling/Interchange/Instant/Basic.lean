/-
# Instants

An instant is a count of milliseconds since the epoch, kept as one `Double`; a not-a-number marks
the empty instant.  Calendar fields are never stored: they are worked out, in UTC, from the greatest
whole millisecond not after the instant, and exist only within the calendar's range of years.

`ofMillis` is `from_millis`, the one way from a number to an instant that looks at the number.  The
arithmetic on instants does not come back through it, so a zone whose offset is infinite leads to an
instant that is not empty and has no fields.

`dateTime?` is `fields`, the weekday aside, which is a function of the date.  `naive` cuts the count
to 64 bits before it asks the calendar; a count that does not fit lies beyond the calendar anyway.

* `isEmpty_ofMillis`: counts that are not finite give the empty instant;
* `equals_refl`, `equals_comm`: equality of instants, unlike that of doubles, is reflexive.
-/
import Interchange.Calendar.DateTime
import Interchange.Decimal.Shortest
import Interchange.Double.Arithmetic

namespace Interchange

open Calendar

/-- Milliseconds since the epoch; a not-a-number when there is no instant. -/
structure Instant where
  millis : Double
  deriving DecidableEq

namespace Instant

def empty : Instant := ⟨Double.quietNaN⟩

instance : Inhabited Instant := ⟨empty⟩

/-- Whether there is no instant.  An infinity is one, though no calendar has it. -/
def isEmpty (x : Instant) : Bool := x.millis.isNaN

/-- The instant at a count of milliseconds; empty unless the count is finite. -/
def ofMillis (ms : Double) : Instant := if ms.isFinite then ⟨ms⟩ else empty

def ofDateTime (t : DateTime) : Instant := ⟨Double.ofInt t.toMillis⟩

/-- The calendar date and time of the greatest whole millisecond that is not after the instant, if
the calendar has that year. -/
def dateTime? (x : Instant) : Option DateTime := x.millis.floor?.bind DateTime.ofMillis?

/-- Equality: empty instants are equal, others when their counts are.  Zeros of both signs are the
same instant. -/
def equals (x y : Instant) : Bool := (x.isEmpty && y.isEmpty) || x.millis.equals y.millis

/-- The difference in milliseconds, unless one side is empty. -/
def diff (x y : Instant) : Option Double :=
  if x.isEmpty || y.isEmpty then none else some (x.millis - y.millis)

/-- The debug text of an instant, which tells it apart from a number. -/
def inspect (x : Instant) : List Char :=
  "DateValue(".toList ++ (if x.isEmpty then "empty".toList else x.millis.inspect) ++ [')']

/-- Counts that are not finite give the empty instant. -/
theorem isEmpty_ofMillis (ms : Double) : (ofMillis ms).isEmpty = !ms.isFinite := by
  unfold ofMillis
  cases ms <;> rfl

theorem equals_refl (x : Instant) : x.equals x = true := by
  cases h : x.millis <;> simp [equals, isEmpty, h, Double.isNaN, Double.equals, Double.ordinal]

theorem equals_comm (x y : Instant) : x.equals y = y.equals x := by
  unfold equals
  rw [Bool.and_comm, Double.equals_comm]

/-- One millisecond before the epoch, and an instant that no year of the calendar holds. -/
example : (ofMillis (Double.ofInt (-1))).dateTime? = some ⟨⟨1969, 11, 31⟩, ⟨23, 59, 59, 999⟩⟩ ∧
    (ofMillis (Double.ofInt (10 ^ 20))).dateTime? = none ∧
    (ofMillis (.infinity false)).isEmpty = true := by decide +kernel

end Instant
end Interchange
