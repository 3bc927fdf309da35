/-
# Data that cross to native code and back

In every session that a run leads to, a datum that is classified and turned back is the same datum,
whatever its kind and under either lifetime.  What cannot come back is what no native kind keeps: a
handle to nothing, the sign of a zero, the box around a primitive, and the milliseconds of a date
that are not finite.

* `Datum.crossed`: what a datum is after it has crossed;
* `toHandle_classify_reachable`: classifying and turning back does exactly that.
-/
import Interchange.Proofs.Script.Registry
import Interchange.Proofs.Value.Number

namespace Interchange.Script

/-! ## 1. What crosses -/

/-- An atom after it has crossed to native code and back. -/
def Atom.crossed : Atom → Atom
  | .empty | .undefined => .undefined
  | .null => .null
  | .boolean b | .booleanObject b => .boolean b
  | .number x | .numberObject x => .number x.dropZeroSign
  | .string s | .stringObject s => .string s
  | .date ms => .date (if ms.isFinite then ms else Double.quietNaN)

/-- A datum after it has crossed to native code and back: objects and functions keep their identity,
and what else there is depends on its content alone. -/
def Datum.crossed : Datum → Datum
  | .atom a => .atom a.crossed
  | .object r => .object r
  | .function r => .function r

namespace Heap

/-! ## 2. Classifying and turning back -/

/-- A number comes back as the number that its value widens to. -/
theorem toHandle_of_toDouble? (h : Heap) {v : Value Datum} {x : Double}
    (hv : v.toDouble? = some x) : v.toHandle h.runtime = .atom (.number x) := by
  cases v with
  | integer | long | number =>
    obtain rfl : _ = x := Option.some.inj hv
    rfl
  | undefined | null | boolean | date | string | object | transient | persistent | type | marker =>
    contradiction

/-- Every atom has a kind of value, and comes back from it as an atom. -/
theorem recognise_atom (h : Heap) (a : Atom) :
    ∃ v, Value.recognise h.runtime (.atom a) = some v ∧ v.toHandle h.runtime = .atom a.crossed := by
  cases a with
  | number x | numberObject x =>
    exact ⟨Value.ofNumber x, rfl, h.toHandle_of_toDouble? (Value.toDouble?_ofNumber x)⟩
  | date ms =>
    have hms : (Instant.ofMillis ms).millis = if ms.isFinite then ms else Double.quietNaN := by
      unfold Instant.ofMillis
      split <;> rfl
    refine ⟨.date (Instant.ofMillis ms), rfl, ?_⟩
    rw [Atom.crossed, ← hms]
    rfl
  | empty | undefined | null | boolean | string | booleanObject | stringObject =>
    exact ⟨_, rfl, rfl⟩

/-- A datum that is kept comes back unchanged, whatever has happened since. -/
theorem toHandle_keep (h h' : Heap) (lifetime : Lifetime) (d : Datum) :
    (h.keep lifetime d).2.toHandle h'.runtime = d := by
  cases lifetime <;> rfl

/-- **A datum that is classified comes back as what it is after crossing.**  Atoms have a kind of
their own, functions and objects that wrap nothing are kept by reference.  Only an object that
resolves goes through the table, and that it comes back as itself is what the agreement of the table
says. -/
theorem toHandle_classify {h : Heap} (hr : h.Registered) (lifetime : Lifetime) (d : Datum) :
    (h.classify lifetime d).2.toHandle (h.classify lifetime d).1.runtime = d.crossed := by
  unfold classify
  cases d with
  | atom a =>
    obtain ⟨v, hv, hback⟩ := h.recognise_atom a
    rw [hv]
    exact hback
  | function r =>
    have hnone : Value.recognise h.runtime (.function r) = none := rfl
    rw [hnone]
    exact h.toHandle_keep _ lifetime _
  | object r =>
    have hobject : Value.recognise h.runtime (.object r) =
        (h.resolve (.object r)).map .object := rfl
    rw [hobject]
    cases hid : h.resolve (.object r) with
    | none => exact h.toHandle_keep _ lifetime _
    | some id =>
      show (h.wrapper? id).getD (.atom .null) = .object r
      rw [hr.wrapper?_of_resolve hid]
      rfl

end Heap

/-! ## 3. In every session -/

/-- **In every session that a run leads to, every datum crosses to native code and back**, under
either lifetime: as the same datum, but for what no native kind keeps.  Objects and functions come
back with their identity, whether they wrap a registered object, one that was released, or none. -/
theorem toHandle_classify_reachable {s : Session} (hs : s.Reachable) (lifetime : Lifetime)
    (d : Datum) :
    (s.heap.classify lifetime d).2.toHandle (s.heap.classify lifetime d).1.runtime = d.crossed :=
  Heap.toHandle_classify hs.registered lifetime d

/-- Of two registered objects one is released; a function is the third cell. -/
theorem toHandle_classify_after_release :
    let commands : List Command := [.object (.register "a"), .object (.register "b"),
      .data (.create "f" (.function "f" .noop)), .object (.unregister ⟨1⟩ none)]
    ∃ s replies, (default : Session).run commands = some (s, replies) ∧
      s.heap.resolve (.object 0) = none ∧ s.heap.resolve (.object 1) = some ⟨2⟩ ∧
      ∀ lifetime, ∀ d ∈ [Datum.object 0, .object 1, .function 2],
        (s.heap.classify lifetime d).2.toHandle (s.heap.classify lifetime d).1.runtime = d := by
  intro commands
  have hresolve : ((default : Session).run commands).map
      (fun p => (p.1.heap.resolve (.object 0), p.1.heap.resolve (.object 1))) =
        some (none, some ⟨2⟩) := by decide +kernel
  obtain ⟨⟨s, replies⟩, hrun, hpair⟩ := Option.map_eq_some_iff.mp hresolve
  rw [Prod.mk.injEq] at hpair
  refine ⟨s, replies, hrun, hpair.1, hpair.2, fun lifetime d hd => ?_⟩
  rw [toHandle_classify_reachable ⟨commands, replies, hrun⟩ lifetime d]
  simp only [List.mem_cons, List.not_mem_nil, or_false] at hd
  rcases hd with rfl | rfl | rfl <;> rfl

end Interchange.Script
