/-
# Runs of a session

A run performs commands one after the other.  It ends early only where a command names something
that is not there.  Everything else has a reply: a release of what is not registered, and a call of
what is no function, leave the session as it is and say so.

* `run_append`: a run of two lists of commands is a run of the first, then of the second.
-/
import Interchange.Script.Session.Handles
import Interchange.Script.Session.Objects

namespace Interchange.Script

inductive Command where
  | data (command : DataCommand)
  | object (command : ObjectCommand)
  | value (command : ValueCommand)
  | handle (command : HandleCommand)

namespace Session

/-- Performs a command, unless it names something that is not there. -/
def perform (s : Session) : Command → Option (Session × Reply)
  | .data c => s.performData c
  | .object c => s.performObject c
  | .value c => s.performValue c
  | .handle c => s.performHandle c

/-- Performs commands in order and collects the replies; there is no result if one of them names
something that is not there. -/
def run (s : Session) : List Command → Option (Session × List Reply)
  | [] => some (s, [])
  | c :: rest => do
    let (s, reply) ← s.perform c
    let (s, replies) ← s.run rest
    return (s, reply :: replies)

/-- A run of two lists of commands is a run of the first, then of the second. -/
theorem run_append (s : Session) (first second : List Command) :
    s.run (first ++ second) = (s.run first).bind fun (t, replies) =>
      (t.run second).map fun (u, more) => (u, replies ++ more) := by
  induction first generalizing s with
  | nil => simp [run]
  | cons c rest ih =>
    cases hc : s.perform c with
    | none => simp [run, hc]
    | some p =>
      simp only [List.cons_append, run, hc, Option.bind_eq_bind, Option.bind_some, ih]
      cases p.1.run rest with
      | none => rfl
      | some q => cases hq : q.1.run second <;> simp [hq]

end Session
end Interchange.Script
