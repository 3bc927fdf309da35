/-
# Fixed text layouts

Four layouts write an instant in UTC.  All pad the year to at least four digits, with a minus sign
in front of the padding, and every other number to its full width.  An instant without a calendar
date has the empty text.

* `gmt`, written by `to_gmt_string`: `Tue, 15 Nov 1994 08:12:31 GMT`;
* `x509`, by `to_x509_string`: `19941115081231`;
* `sql`, by `sql_string`: `1994-11-15 08:12:31`;
* `stamp`, by `stamp`: `19941115081231045`.

The four share `render`, which asks for the calendar date and writes nothing where there is none
(`text`), and `year`, which is `yearText`.  The names of months and weekdays are the ones that the
reader of dates looks up.
-/
import Interchange.Instant.Basic

namespace Interchange

open Calendar Decimal

/-! ## 1. Names -/

def Calendar.monthNames : List (List Char) :=
  ["Jan", "Feb", "Mar", "Apr", "May", "Jun", "Jul", "Aug", "Sep", "Oct", "Nov", "Dec"].map
    String.toList

/-- The names of the days of the week, from Sunday. -/
def Calendar.weekdayNames : List (List Char) :=
  ["Sun", "Mon", "Tue", "Wed", "Thu", "Fri", "Sat"].map String.toList

namespace Instant

/-! ## 2. The layouts -/

/-- A way of writing a date and time.  Only `stamp` keeps the milliseconds. -/
inductive Layout where
  | gmt | x509 | sql | stamp
  deriving DecidableEq

def Layout.all : List Layout := [.gmt, .x509, .sql, .stamp]

/-- At least four digits of a year, the sign in front of the padding. -/
def yearText (year : Int) : List Char :=
  if year < 0 then '-' :: padded 4 year.natAbs else padded 4 year.natAbs

/-- Hours, minutes and seconds with a separator between them. -/
def clockText (separator : List Char) (t : Time) : List Char :=
  padded 2 t.hour ++ separator ++ padded 2 t.minute ++ separator ++ padded 2 t.second

/-- Year, month and day with a separator between them. -/
def dateText (separator : List Char) (d : Date) : List Char :=
  yearText d.year ++ separator ++ padded 2 (d.month + 1) ++ separator ++ padded 2 d.day

/-- The text of a date and time in a layout. -/
def Layout.write : Layout → DateTime → List Char
  | .gmt, t =>
    (weekdayNames[t.date.weekday]?.getD []) ++ [',', ' '] ++ padded 2 t.date.day ++ [' '] ++
      (monthNames[t.date.month]?.getD []) ++ [' '] ++ yearText t.date.year ++ [' '] ++
      clockText [':'] t.time ++ " GMT".toList
  | .x509, t => dateText [] t.date ++ clockText [] t.time
  | .sql, t => dateText ['-'] t.date ++ [' '] ++ clockText [':'] t.time
  | .stamp, t => dateText [] t.date ++ clockText [] t.time ++ padded 3 t.time.millisecond

/-- The text of an instant in a layout; empty when there is no calendar date. -/
def text (layout : Layout) (x : Instant) : List Char :=
  match x.dateTime? with
  | none => []
  | some t => layout.write t

/-- A date in all four layouts, a year before 0 and one with five digits. -/
example :
    let t : DateTime := ⟨⟨1994, 10, 15⟩, ⟨8, 12, 31, 45⟩⟩
    Layout.gmt.write t = "Tue, 15 Nov 1994 08:12:31 GMT".toList ∧
    Layout.x509.write t = "19941115081231".toList ∧
    Layout.sql.write t = "1994-11-15 08:12:31".toList ∧
    Layout.stamp.write t = "19941115081231045".toList ∧
    Layout.sql.write ⟨⟨-1, 0, 1⟩, ⟨1, 2, 3, 0⟩⟩ = "-0001-01-01 01:02:03".toList ∧
    Layout.stamp.write ⟨⟨10000, 0, 1⟩, ⟨1, 2, 3, 4⟩⟩ = "100000101010203004".toList := by
  decide +kernel

end Instant
end Interchange
