/-
# What a session answers

A reply holds reports: what a reader is told of a datum, a value or a persistent handle at that
moment, counts of references included.
-/
import Interchange.Instant.Action
import Interchange.Script.Session.Basic

namespace Interchange.Script

/-- What is told of a datum: how it shows itself, and the three things that only the heap knows or
that the name of its type does not tell. -/
structure Datum.Report where
  inspect : List Char
  typeName : String
  native : Option ObjectId
  references : Option Nat

/-- What is told of a persistent handle. -/
structure Persistent.Report where
  inspect : List Char
  references : Nat
  held : Datum.Report

namespace Session

def reportDatum (s : Session) (d : Datum) : Datum.Report where
  inspect := s.heap.inspect d
  typeName := d.typeName
  native := s.heap.native? d
  references := s.heap.references d

def reportValue (s : Session) (v : Value Datum) : Value.Report := v.report s.heap.store.count

def reportHandle (s : Session) (p : Persistent Datum) : Persistent.Report where
  inspect := Value.persistentText (s.heap.store.count p.box)
  references := s.heap.store.count p.box
  held := s.reportDatum p.held

end Session

/-- What a session answers to a command. -/
inductive Reply where
  /-- The command did not apply. -/
  | nothing
  | truth (b : Bool)
  | count (n : Nat)
  | references (n : Nat)
  | objectId (id : Option ObjectId)
  | datum (report : Datum.Report)
  | facets (facets : Facets) (report : Datum.Report)
  | registered (id : ObjectId) (wrapper : Datum.Report) (live : Nat)
  | unregistered (wrapper : Datum.Report) (live : Nat)
  | rejected (error : Heap.Error)
  | value (report : Value.Report)
  /-- A value with everything that can be read from it. -/
  | contents (value : Value Datum) (report : Value.Report) (handle : Option Datum.Report)
  | appended (done : Bool) (report : Value.Report)
  | instant (answer : Instant.Answer) (report : Value.Report)
  | handle (report : Persistent.Report)

end Interchange.Script
