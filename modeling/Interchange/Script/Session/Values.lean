/-
# Commands on values

Values are made, classified from data and turned back into data, copied, changed and read.

`classify`, `assign` and `toHandle` are `classify`, `assign` and `to_handle` of the bridge; `clear`
is `clear` of a value, and `append` is what `as_mut_string` is for.

`assign` is the one command that lets go of the old value before it has the new one: the target is
cleared, and what it held is gone when the datum is classified.  The others store over it.
-/
import Interchange.Script.Session.Data

namespace Interchange.Script

inductive ValueCommand where
  /-- A value that keeps no handle. -/
  | plain (target : String) (value : Value Empty)
  /-- A handle on a datum. -/
  | keep (target : String) (lifetime : Lifetime) (source : String)
  | classify (source target : String) (lifetime : Lifetime)
  /-- Clears a value that is there and puts a classified datum in its place. -/
  | assign (target source : String) (lifetime : Lifetime)
  /-- The datum of a value. -/
  | toHandle (source target : String)
  | copy (source target : String)
  | drop (name : String)
  | clear (name : String)
  | append (name suffix : String)
  /-- An action on the instant inside. -/
  | act (name : String) (action : Instant.Action)
  | compare (a b : String)
  | examine (name : String)

namespace Session

/-- Stores a value, whose references are already taken, and reports on it. -/
def answerValue (s : Session) (target : String) (v : Value Datum) : Session × Reply :=
  let s := s.putValue target v
  (s, .value (s.reportValue v))

/-- Stores the value of a datum and reports on it. -/
def classify (s : Session) (target : String) (lifetime : Lifetime) (d : Datum) : Session × Reply :=
  let (heap, v) := s.heap.classify lifetime d
  answerValue { s with heap } target v

/-- Performs a command on values, unless it names something that is not there.  An action on the
instant, or an addition to the text, of a value that holds neither changes nothing. -/
def performValue (s : Session) : ValueCommand → Option (Session × Reply)
  | .plain target value => some (s.answerValue target (.ofPlain value))
  | .keep target lifetime source => do
    let d ← s.data.get? source
    let (heap, v) := s.heap.keep lifetime d
    return answerValue { s with heap } target v
  | .classify source target lifetime => do
    let d ← s.data.get? source
    return s.classify target lifetime d
  | .assign target source lifetime => do
    let _ ← s.values.get? target
    let d ← s.data.get? source
    return (s.putValue target .undefined).classify target lifetime d
  | .toHandle source target => do
    let v ← s.values.get? source
    return s.shareDatum target (v.toHandle s.heap.runtime)
  | .copy source target => do
    let v ← s.values.get? source
    return (s.retain v.refs).answerValue target v
  | .drop name => some (s.dropValue name, .truth (s.values.contains name))
  | .clear name => do
    let _ ← s.values.get? name
    return s.answerValue name .undefined
  | .append name suffix => do
    let v ← s.values.get? name
    match v.append? suffix with
    | none => return (s, .appended false (s.reportValue v))
    | some w =>
      let s := s.putValue name w
      return (s, .appended true (s.reportValue w))
  | .act name action => do
    let v ← s.values.get? name
    match v with
    | .date x =>
      let (y, answer) := x.perform action
      let s := s.putValue name (.date y)
      return (s, .instant answer (s.reportValue (.date y)))
    | _ => return (s, .nothing)
  | .compare a b => do
    let v ← s.values.get? a
    let w ← s.values.get? b
    return (s, .truth (v.equals Datum.equals w))
  | .examine name => do
    let v ← s.values.get? name
    return (s, .contents v (s.reportValue v) (v.toHandle?.map s.reportDatum))

end Session
end Interchange.Script
