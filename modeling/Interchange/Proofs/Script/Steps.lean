/-
# What a move does to the heap

Whatever a session does, its heap changes in steps of three kinds: one that leaves alone what wraps
a native object, a registration, and a release of a native object.

* `Move.steps`: a move takes such steps;
* `Reachable.steps`: so does a run.
-/
import Mathlib.Logic.Relation
import Interchange.Proofs.Script.Frame
import Interchange.Proofs.Script.Moves

namespace Interchange.Script

namespace Heap

/-! ## 1. Steps of the heap -/

/-- One change of the heap. -/
inductive Step : Heap → Heap → Prop where
  | frame {h : Heap} {store : Store} : h.store.Frame store → Step h { h with store }
  | register (h : Heap) : Step h h.register.1
  | unregister {h h' : Heap} {id : ObjectId} {d : Datum} :
      h.unregister id = .ok (h', d) → Step h h'

/-- Changes of the heap, one after the other. -/
def Steps : Heap → Heap → Prop := Relation.ReflTransGen Step

theorem Steps.refl (h : Heap) : h.Steps h := Relation.ReflTransGen.refl

theorem Step.steps {h h' : Heap} (hs : h.Step h') : h.Steps h' := .single hs

theorem Steps.trans {h h' h'' : Heap} (hs : h.Steps h') (hs' : h'.Steps h'') : h.Steps h'' :=
  Relation.ReflTransGen.trans hs hs'

theorem steps_retain (h : Heap) (refs : List Ref) : h.Steps (h.retain refs) :=
  (Step.frame (.retain h.store refs)).steps

theorem steps_release (h : Heap) (refs : List Ref) : h.Steps (h.release refs) :=
  (Step.frame (.release h.store refs)).steps

theorem steps_alloc (h : Heap) {content : Content} (hc : content.native? = none) :
    h.Steps (h.alloc content).1 :=
  (Step.frame (.alloc hc)).steps

/-- Storing a property leaves it alone what the object wraps. -/
theorem steps_set (h : Heap) (d : Datum) (key : String) (value : Datum) :
    h.Steps (h.set d key value) := by
  unfold set
  split
  · next r =>
    split
    · next native properties hcontent =>
      refine (Step.frame (.trans (.retain h.store value.refs) (.trans (.update fun c' hc' => ?_)
        (.release _ _)))).steps
      -- taking references for the property leaves the object there as it was
      rw [← h.store.content?_retain value.refs, Store.content?_of_cell? hc'] at hcontent
      rw [Option.some.inj hcontent]
      rfl
    · exact .refl h
  · exact .refl h

theorem steps_hold (h : Heap) (d : Datum) : h.Steps (h.hold d).1 :=
  (h.steps_retain d.refs).trans ((h.retain d.refs).steps_alloc rfl)

theorem steps_keep (h : Heap) (lifetime : Lifetime) (d : Datum) :
    h.Steps (h.keep lifetime d).1 := by
  cases lifetime with
  | transient => exact h.steps_retain d.refs
  | persistent => exact h.steps_hold d

end Heap

/-! ## 2. Steps of a session -/

namespace Session

open Heap (Steps)

variable (s : Session)

theorem steps_release (refs : List Ref) : s.heap.Steps (s.release refs).heap :=
  s.heap.steps_release refs

theorem steps_retain (refs : List Ref) : s.heap.Steps (s.retain refs).heap :=
  s.heap.steps_retain refs

theorem steps_putDatum (name : String) (d : Datum) : s.heap.Steps (s.putDatum name d).heap :=
  s.heap.steps_release _

theorem steps_putValue (name : String) (v : Value Datum) : s.heap.Steps (s.putValue name v).heap :=
  s.heap.steps_release _

theorem steps_putHandle (name : String) (p : Persistent Datum) :
    s.heap.Steps (s.putHandle name p).heap :=
  s.heap.steps_release _

theorem steps_create (seed : Seed) : s.heap.Steps (s.create seed).1.heap := by
  cases seed with
  | atom a => exact .refl _
  | object | function => exact s.heap.steps_alloc rfl

variable {s} {s' : Session}

/-- **A move changes the heap in steps.**  What it does to names is not seen here, so that the
agreement of the table, which speaks of the heap alone, needs three cases and not one for each move.
-/
theorem Move.steps {event : Option Event} (h : s.Move event s') : s.heap.Steps s'.heap := by
  cases h with
  | share name => exact (s.steps_retain _).trans (steps_putDatum _ name _)
  | create seed name => exact (s.steps_create seed).trans (steps_putDatum _ name _)
  | set key => exact s.heap.steps_set _ key _
  | register name =>
    exact (Heap.Step.register s.heap).steps.trans (steps_putDatum { s with heap := _ } name _)
  | unregister name hu =>
    exact (Heap.Step.unregister hu).steps.trans (steps_putDatum { s with heap := _ } name _)
  | discard hu => exact (Heap.Step.unregister hu).steps.trans (Heap.steps_release _ _)
  | plain name => exact s.steps_putValue name _
  | keep name lifetime =>
    exact (s.heap.steps_keep lifetime _).trans (steps_putValue { s with heap := _ } name _)
  | copy name | enclose name => exact (s.steps_retain _).trans (steps_putValue _ name _)
  | hold name => exact (s.heap.steps_hold _).trans (steps_putHandle { s with heap := _ } name _)
  | handle name => exact (s.steps_retain _).trans (steps_putHandle _ name _)
  | dropDatum name | dropValue name | dropHandle name => exact s.heap.steps_release _

theorem Moves.steps {told : List Event} (h : s.Moves told s') : s.heap.Steps s'.heap := by
  induction h with
  | refl => exact .refl _
  | step hmove _ ih => exact hmove.steps.trans ih

/-! ## 3. Runs -/

/-- A session that some run of commands leads to. -/
def Reachable (s : Session) : Prop :=
  ∃ commands replies, (default : Session).run commands = some (s, replies)

/-- The heap of a session that a run leads to comes from the empty heap in steps. -/
theorem Reachable.steps (h : s.Reachable) : (default : Heap).Steps s.heap := by
  obtain ⟨commands, replies, hrun⟩ := h
  exact (moves_run hrun).steps

end Session
end Interchange.Script
