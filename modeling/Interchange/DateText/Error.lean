/-
# Why a text is no date

The causes that the strict reading reports, and their wording.  The lenient reading reports none of
them and clears the instant.

A cause names its part by a word, "zone hour" or "month", and the callers pass ten words in all:
they are the constructors of `Field`, so that an error can name no other part.  The value of
`fieldOutOfRange` is the number as it was read, whatever its size.

`unrepresentable` is meant for an instant outside the calendar's range.  That range is not checked
once the zone offset is known, and the one place that raises the error, the time of day in
`Scan.millis`, is reached by no text.
-/
import Interchange.Decimal.Digits

namespace Interchange
namespace DateText

/-- A part of a date text that an error can name: those of the calendar, the clock and the zone, and
the date as a whole where no number was found. -/
inductive Field where
  | date | year | month | day | hour | minute | second | zoneOffset | zoneHour | zoneMinute
  deriving DecidableEq

def Field.name : Field → String
  | .date => "date"
  | .year => "year"
  | .month => "month"
  | .day => "day"
  | .hour => "hour"
  | .minute => "minute"
  | .second => "second"
  | .zoneOffset => "zone offset"
  | .zoneHour => "zone hour"
  | .zoneMinute => "zone minute"

/-- Why a text was rejected. -/
inductive Error where
  /-- There is nothing but blanks. -/
  | empty
  /-- A word, a number or a character that is part of no layout, with its own text; a third number
  beside a month's name is shown by its value. -/
  | unexpectedToken (text : List Char)
  /-- A part that a date needs is not there. -/
  | missingField (field : Field)
  /-- A part is there but outside its range. -/
  | fieldOutOfRange (field : Field) (value : Int)
  /-- Every part exists but the instant does not. -/
  | unrepresentable
  deriving DecidableEq

/-- The wording of an error, to the character. -/
def Error.message : Error → String
  | .empty => "empty date text"
  | .unexpectedToken text => "unexpected token `" ++ String.ofList text ++ "` in date text"
  | .missingField field => "date text is missing the " ++ field.name
  | .fieldOutOfRange field value =>
    field.name ++ " " ++ String.ofList (Decimal.signed value) ++ " is out of range"
  | .unrepresentable => "date is outside the representable range"

end DateText
end Interchange
