/-
# Working on one instant

An instant that is kept somewhere is changed and questioned by actions.  Performing an action gives
the instant that is kept from then on, and an answer.

Each action is one operation of the sections before, so that whole histories of an instant can be
run: `from_millis`, `clear`, `create`, `add`, `fix`, `to_local_in`, `to_utc_in`, `parse`,
`parse_bytes`, `try_parse`, and the questions.  Questions leave the instant as it is, and so does a
text that the strict reading rejects; the lenient reading of a text that is no date clears it.
-/
import Interchange.DateText.Read
import Interchange.Instant.Arithmetic
import Interchange.Instant.Zone

namespace Interchange
namespace Instant

inductive Question where
  /-- The differences to another instant, in both directions. -/
  | differences (other : Instant)
  /-- Whether it equals another instant. -/
  | equality (other : Instant)
  /-- Its calendar date and time. -/
  | fields
  /-- Its text in every layout. -/
  | texts
  /-- Everything about it. -/
  | report

/-- Something done with an instant. -/
inductive Action where
  /-- Take the instant at a count of milliseconds. -/
  | set (ms : Double)
  /-- Forget the instant. -/
  | clear
  /-- Take the instant of some components. -/
  | compose (components : Components)
  /-- Move by units of a part. -/
  | add (count : Int32) (part : Part)
  /-- Cut back to the start of a part. -/
  | startOf (part : Part)
  /-- Move to the wall clock of a zone. -/
  | toLocal (zone : Zone)
  /-- Move from the wall clock of a zone. -/
  | toUtc (zone : Zone)
  /-- Read a text leniently. -/
  | parse (text : List Char)
  /-- Read the text in a byte buffer leniently. -/
  | parseBytes (buffer : List UInt8) (length : Option Nat)
  /-- Read a text strictly; a rejected one changes nothing. -/
  | read (text : List Char)
  /-- Write the instant in a layout and read that text leniently. -/
  | reread (layout : Layout)
  /-- Ask something. -/
  | ask (question : Question)

/-- What an action answers.  Of a change it is `done`; what has become of the instant is a question
of its own. -/
inductive Answer where
  | done
  | rejected (error : DateText.Error)
  | written (text : List Char)
  | differences (ahead behind : Option Double)
  | equality (same : Bool)
  | fields (fields : Option Calendar.DateTime)
  | texts (texts : List (List Char))
  | report (instant : Instant)

def answer (x : Instant) : Question → Answer
  | .differences other => .differences (x.diff other) (other.diff x)
  | .equality other => .equality (x.equals other)
  | .fields => .fields x.dateTime?
  | .texts => .texts (Layout.all.map (text · x))
  | .report => .report x

/-- The instant after an action, and the answer. -/
def perform (x : Instant) : Action → Instant × Answer
  | .set ms => (ofMillis ms, .done)
  | .clear => (empty, .done)
  | .compose components => (ofComponents components, .done)
  | .add count part => (x.add count part, .done)
  | .startOf part => (x.startOf part, .done)
  | .toLocal zone => (x.toLocal zone, .done)
  | .toUtc zone => (x.toUtc zone, .done)
  | .parse text => (parse text, .done)
  | .parseBytes buffer length => (parseBytes buffer length, .done)
  | .read text =>
    match Instant.read text with
    | .ok y => (y, .done)
    | .error e => (x, .rejected e)
  | .reread layout => (parse (text layout x), .written (text layout x))
  | .ask question => (x, x.answer question)

/-- Performs actions in order: after each, the instant and the answer. -/
def run (x : Instant) : List Action → List (Instant × Answer)
  | [] => []
  | a :: rest => x.perform a :: run (x.perform a).1 rest

end Instant
end Interchange
