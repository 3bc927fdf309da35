/-
# Commands on persistent handles

Copies of a persistent handle share its box.  Each hold on a datum makes a box of its own.  The
datum's count rises by one for each box and not for each copy, so both counts are reported.

`hold`, `copy`, `get` and `drop` are `new`, `clone`, `get` and `release` of a persistent handle, and
`compare` is `ptr_eq`.
-/
import Interchange.Script.Session.Values

namespace Interchange.Script

inductive HandleCommand where
  /-- A new box on a datum. -/
  | hold (source target : String)
  | copy (source target : String)
  /-- A copy of the handle inside a value. -/
  | take (value target : String)
  /-- A value with a copy of the handle. -/
  | toValue (source target : String)
  /-- The datum that is held. -/
  | get (source target : String)
  | drop (name : String)
  | compare (a b : String)
  | examine (name : String)

namespace Session

/-- Stores a persistent handle, whose reference is already taken, and reports on it. -/
def answerHandle (s : Session) (target : String) (p : Persistent Datum) : Session × Reply :=
  let s := s.putHandle target p
  (s, .references (s.heap.store.count p.box))

/-- Performs a command on persistent handles, unless it names something that is not there. -/
def performHandle (s : Session) : HandleCommand → Option (Session × Reply)
  | .hold source target => do
    let d ← s.data.get? source
    let (heap, p) := s.heap.hold d
    return answerHandle { s with heap } target p
  | .copy source target => do
    let p ← s.handles.get? source
    return (s.retain p.refs).answerHandle target p
  | .take value target => do
    let v ← s.values.get? value
    match v with
    | .persistent p => return (s.retain p.refs).answerHandle target p
    | _ => return (s, .nothing)
  | .toValue source target => do
    let p ← s.handles.get? source
    return (s.retain p.refs).answerValue target (.persistent p)
  | .get source target => do
    let p ← s.handles.get? source
    return s.shareDatum target p.held
  | .drop name => some (s.dropHandle name, .truth (s.handles.contains name))
  | .compare a b => do
    let p ← s.handles.get? a
    let q ← s.handles.get? b
    return (s, .truth (p.box = q.box))
  | .examine name => do
    let p ← s.handles.get? name
    return (s, .handle (s.reportHandle p))

end Session
end Interchange.Script
