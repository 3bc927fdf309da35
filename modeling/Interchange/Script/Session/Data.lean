/-
# Commands on data

Data are made, shared under other names, read and written as properties, called and compared.  What
is read or returned is shared: it stays where it was, with one more reference.

Each command is one operation on a script value: a constructor, `clone` or the drop of a name,
`get`, `set`, `call`, equality, or what `type_of`, `native_id`, `ref_count` and the debug text
tell.

The arguments of a call are read where they are stored.  A program that clones them into a list for
the call drops the list behind it, and the counts are the same before and after.
-/
import Interchange.Script.Session.Reply

namespace Interchange.Script

/-- How a datum is made. -/
inductive Seed where
  | atom (a : Atom)
  | object
  | function (name : String) (body : Body)

inductive DataCommand where
  | create (target : String) (seed : Seed)
  | copy (source target : String)
  | drop (name : String)
  | get (source key target : String)
  | set (target key source : String)
  | call (source : String) (arguments : List String) (target : String)
  | compare (a b : String)
  | examine (name : String)

namespace Session

/-- A new datum, with a reference of its own. -/
def create (s : Session) : Seed → Session × Datum
  | .atom a => (s, .atom a)
  | .object =>
    let (heap, r) := s.heap.alloc (.object none .empty)
    ({ s with heap }, .object r)
  | .function name body =>
    let (heap, r) := s.heap.alloc (.function name body)
    ({ s with heap }, .function r)

/-- Stores a datum, whose references are already taken, and reports on it. -/
def answerDatum (s : Session) (target : String) (d : Datum) : Session × Reply :=
  let s := s.putDatum target d
  (s, .datum (s.reportDatum d))

/-- Stores another reference to a datum and reports on it. -/
def shareDatum (s : Session) (target : String) (d : Datum) : Session × Reply :=
  (s.retain d.refs).answerDatum target d

/-- Performs a command on data, unless it names something that is not there.  A property is set on
whatever the target is; only an object takes it. -/
def performData (s : Session) : DataCommand → Option (Session × Reply)
  | .create target seed =>
    let (s, d) := s.create seed
    some (s.answerDatum target d)
  | .copy source target => do
    let d ← s.data.get? source
    return s.shareDatum target d
  | .drop name => some (s.dropDatum name, .truth (s.data.contains name))
  | .get source key target => do
    let d ← s.data.get? source
    return s.shareDatum target (s.heap.get d key)
  | .set target key source => do
    let d ← s.data.get? target
    let value ← s.data.get? source
    let s := { s with heap := s.heap.set d key value }
    return (s, .datum (s.reportDatum d))
  | .call source arguments target => do
    let d ← s.data.get? source
    let values ← arguments.mapM s.data.get?
    match s.heap.call d values with
    | none => return (s, .nothing)
    | some result => return s.shareDatum target result
  | .compare a b => do
    let d ← s.data.get? a
    let e ← s.data.get? b
    return (s, .truth (d.equals e))
  | .examine name => do
    let d ← s.data.get? name
    return (s, .facets d.facets (s.reportDatum d))

end Session
end Interchange.Script
