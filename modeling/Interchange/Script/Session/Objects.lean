/-
# Commands on registered objects

Objects are registered and released, and their wrappers handed to the script.  Registering hands out
a second reference to the wrapper, beside the table's; releasing hands out the table's own, so that
no reference is taken there.

The commands are `register`, `release`, `is_live`, `live_count`, `resolve` and `wrap_object` of the
script heap.  Where `release` returns an error, the reply holds it and the session is unchanged.
-/
import Interchange.Script.Session.Data

namespace Interchange.Script

inductive ObjectCommand where
  | register (target : String)
  /-- Without a name the wrapper is released once it has been reported on. -/
  | unregister (id : ObjectId) (target : Option String)
  | isLive (id : ObjectId)
  | liveCount
  | resolve (source : String)
  | wrap (id : ObjectId) (target : String)

namespace Session

/-- Performs a command on registered objects, unless it names something that is not there. -/
def performObject (s : Session) : ObjectCommand → Option (Session × Reply)
  | .register target =>
    let (heap, id, d) := s.heap.register
    let s := putDatum { s with heap } target d
    some (s, .registered id (s.reportDatum d) s.heap.liveCount)
  | .unregister id target =>
    match s.heap.unregister id with
    | .error e => some (s, .rejected e)
    | .ok (heap, d) =>
      let s := { s with heap }
      match target with
      | some name =>
        let s := s.putDatum name d
        some (s, .unregistered (s.reportDatum d) s.heap.liveCount)
      | none => some (s.release d.refs, .unregistered (s.reportDatum d) s.heap.liveCount)
  | .isLive id => some (s, .truth (s.heap.isLive id))
  | .liveCount => some (s, .count s.heap.liveCount)
  | .resolve source => do
    let d ← s.data.get? source
    return (s, .objectId (s.heap.resolve d))
  | .wrap id target =>
    match s.heap.wrapper? id with
    | none => some (s, .nothing)
    | some d => some (s.shareDatum target d)

end Session
end Interchange.Script
