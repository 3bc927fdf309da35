/-
# Values that cross to a script and back

A value goes to the script as a datum, and the datum is classified when it comes back.  The kind can
change on the way, and for some values so does what they hold: a wide integer goes as the nearest
floating-point number, and that may be one that is narrowed otherwise.  One crossing settles all of
it: what came back is what its datum is classified as, and it crosses again unchanged.

Settled values are those that one crossing leaves as they are.  Undefined, null, booleans, texts and
integers of 32 bits always are.  An integer of 64 bits is settled if it needs them and a
floating-point number can hold it, a number if it is no integer of 64 bits, a date if it is empty or
finite, an object while it is registered, and a handle if its datum has no other kind.

* `Heap.settled_classify`: what is classified is settled;
* `Heap.substance_roundTrip`: what is settled crosses unchanged;
* `roundTrip_reachable`: a second crossing changes nothing, and the first one only what is not
  settled.
-/
import Interchange.Proofs.Script.Crossing
import Interchange.Proofs.Script.Wrappers

namespace Interchange

open Script

/-! ## 1. What a value holds -/

/-- The kind of a value and what it holds: all empty dates are one, and a handle counts by its
datum, not by the box that its copies share. -/
def Value.substance {H : Type} : Value H → Value H
  | .date x => .date (if x.isEmpty then .empty else x)
  | .persistent p => .persistent ⟨0, p.held⟩
  | v => v

theorem Value.kind_substance {H : Type} (v : Value H) : v.substance.kind = v.kind := by
  cases v <;> rfl

theorem Value.kind_eq_of_substance_eq {H : Type} {v w : Value H} (h : v.substance = w.substance) :
    v.kind = w.kind := by
  rw [← kind_substance v, h, kind_substance]

namespace Script.Heap

variable {h : Heap} {lifetime : Lifetime}

/-- The value of the datum that a value becomes, under a lifetime for handles. -/
def roundTrip (h : Heap) (lifetime : Lifetime) (v : Value Datum) : Heap × Value Datum :=
  h.classify lifetime (v.toHandle h.runtime)

/-- Whether a value is what the datum that it becomes is classified as. -/
def Settled (h : Heap) (lifetime : Lifetime) : Value Datum → Prop
  | .undefined | .null | .boolean _ | .integer _ | .string _ => True
  | .long n => ¬(-0x80000000 ≤ n.toInt ∧ n.toInt < 0x80000000) ∧
      ∃ x : Double, x.toInt? = some n.toInt
  | .number x =>
    ∀ n, x.toInt? = some n → ¬(-0x8000000000000000 ≤ n ∧ n < 0x8000000000000000)
  | .date x => x.isEmpty = true ∨ x.millis.isFinite = true
  | .object id => h.isLive id = true
  | .transient d => lifetime = .transient ∧ Value.recognise h.runtime d = none
  | .persistent p => lifetime = .persistent ∧ Value.recognise h.runtime p.held = none
  | .type | .marker => False

/-- Whether a value is settled depends only on its substance. -/
theorem settled_substance_iff (v : Value Datum) :
    h.Settled lifetime v.substance ↔ h.Settled lifetime v := by
  cases v with
  | date x =>
    by_cases hx : x.isEmpty = true
    · simp only [Value.substance, Settled, hx, true_or, iff_true]
      exact .inl rfl
    · simp only [Value.substance, if_neg hx]
  | _ => exact Iff.rfl

/-! ## 2. Keeping a datum -/

theorem native?_retain (h : Heap) (refs : List Ref) : (h.retain refs).native? = h.native? := by
  funext d
  cases d with
  | atom | function => rfl
  | object r =>
    rw [native?_object, native?_object, Store.native?, Store.native?, retain, Store.content?_retain]

theorem native?_alloc_box (h : Heap) (d : Datum) : (h.alloc (.box d)).1.native? = h.native? := by
  funext e
  cases e with
  | atom | function => rfl
  | object r =>
    rw [native?_object, native?_object]
    show (h.store.alloc (.box d)).1.native? r = h.store.native? r
    rw [Store.native?_alloc]
    split
    · next hr =>
      cases hc : h.store.cell? r with
      | none =>
        rw [Store.native?, Store.content?, hc]
        rfl
      | some c => exact absurd hr (Nat.ne_of_lt (Store.lt_length_of_cell? hc))
    · rfl

/-- **Classifying changes neither which objects are registered nor which data wrap them.**  It
counts another reference, and for a persistent handle it makes a box, which wraps nothing.  So what
a value crosses to does not depend on how often it did before. -/
theorem wrappers_native?_classify (h : Heap) (lifetime : Lifetime) (d : Datum) :
    (h.classify lifetime d).1.wrappers = h.wrappers ∧
      (h.classify lifetime d).1.native? = h.native? := by
  unfold classify
  split
  · exact ⟨rfl, rfl⟩
  · cases lifetime with
    | transient => exact ⟨rfl, h.native?_retain d.refs⟩
    | persistent => exact ⟨rfl, (native?_alloc_box _ d).trans (h.native?_retain d.refs)⟩

theorem recognise_congr {h' : Heap} (hwrappers : h'.wrappers = h.wrappers)
    (hnative : h'.native? = h.native?) (d : Datum) :
    Value.recognise h'.runtime d = Value.recognise h.runtime d := by
  have hresolve : h'.resolve = h.resolve := by
    funext e
    unfold resolve isLive
    rw [hnative, hwrappers]
  unfold Value.recognise runtime
  rw [hresolve]

theorem settled_congr {h' : Heap} (hwrappers : h'.wrappers = h.wrappers)
    (hnative : h'.native? = h.native?) (v : Value Datum) :
    h'.Settled lifetime v ↔ h.Settled lifetime v := by
  cases v with
  | object id =>
    unfold Settled isLive
    rw [hwrappers]
  | transient d => simp only [Settled, recognise_congr hwrappers hnative]
  | persistent p => simp only [Settled, recognise_congr hwrappers hnative]
  | _ => exact Iff.rfl

/-! ## 3. What is classified is settled -/

theorem settled_ofInteger {n : Int64} {x : Double} (hx : x.toInt? = some n.toInt) :
    h.Settled lifetime (Value.ofInteger n) := by
  unfold Value.ofInteger
  split
  · trivial
  · next hwide => exact ⟨hwide, x, hx⟩

theorem settled_ofNumber (x : Double) : h.Settled lifetime (Value.ofNumber x) := by
  rcases Value.ofNumber_cases (H := Datum) x with ⟨n, hn, hinteger⟩ | ⟨hwide, hnumber⟩
  · rw [hinteger]
    exact settled_ofInteger hn
  · rw [hnumber]
    exact hwide

theorem settled_date (ms : Double) : h.Settled lifetime (.date (Instant.ofMillis ms)) := by
  by_cases hms : ms.isFinite = true
  · right
    rw [Instant.ofMillis, if_pos hms]
    exact hms
  · left
    rw [Instant.isEmpty_ofMillis]
    simp only [hms, Bool.not_false]

/-- **What is classified is settled.**  Each kind is made by one branch of `classify`, and `Settled`
asks of a value of that kind only what the branch has tested. -/
theorem settled_classify (h : Heap) (lifetime : Lifetime) (d : Datum) :
    h.Settled lifetime (h.classify lifetime d).2 := by
  unfold classify
  split
  · next v hv =>
    cases d with
    | atom a =>
      cases a with
      | number x | numberObject x =>
        obtain rfl : Value.ofNumber x = v := Option.some.inj hv
        exact settled_ofNumber x
      | date ms =>
        obtain rfl : Value.date (Instant.ofMillis ms) = v := Option.some.inj hv
        exact settled_date ms
      | empty | undefined | null | boolean | string | booleanObject | stringObject =>
        cases hv
        trivial
    | function r => contradiction
    | object r =>
      obtain ⟨id, hid, rfl⟩ := Option.map_eq_some_iff.mp hv
      exact (Option.filter_eq_some_iff.mp hid).2
  · next hnone =>
    cases lifetime with
    | transient => exact ⟨rfl, hnone⟩
    | persistent => exact ⟨rfl, hnone⟩

/-! ## 4. What is settled crosses unchanged -/

/-- A number goes to the script as it is, and is narrowed when it comes back. -/
theorem roundTrip_of_toDouble? {v : Value Datum} {x : Double} (hv : v.toDouble? = some x) :
    (h.roundTrip lifetime v).2 = Value.ofNumber x := by
  rw [roundTrip, h.toHandle_of_toDouble? hv]
  rfl

theorem roundTrip_object (hwrapped : ∀ id d, h.wrapper? id = some d → h.native? d = some id)
    {id : ObjectId} (hlive : h.isLive id = true) :
    (h.roundTrip lifetime (.object id)).2 = .object id := by
  obtain ⟨r, hr⟩ := Option.isSome_iff_exists.mp hlive
  have hwrapper : h.wrapper? id = some (.object r) := by
    rw [wrapper?, hr]
    rfl
  have hresolve : h.resolve (.object r) = some id :=
    Option.filter_eq_some_iff.mpr ⟨hwrapped id _ hwrapper, hlive⟩
  have hdatum : (Value.object id).toHandle h.runtime = .object r := by
    show (h.wrapper? id).getD (.atom .null) = .object r
    rw [hwrapper]
    rfl
  have hvalue : Value.recognise h.runtime (.object r) = some (.object id) := by
    show (h.resolve (.object r)).map Value.object = some (.object id)
    rw [hresolve]
    rfl
  rw [roundTrip, hdatum, classify, hvalue]

/-- **What is settled crosses unchanged.**  The table has to agree with the objects in one direction
only: a wrapper that is found wraps the number under which it was found. -/
theorem substance_roundTrip (hwrapped : ∀ id d, h.wrapper? id = some d → h.native? d = some id)
    {v : Value Datum} (hv : h.Settled lifetime v) :
    (h.roundTrip lifetime v).2.substance = v.substance := by
  cases v with
  | undefined | null | boolean | string => rfl
  | integer n => rw [roundTrip_of_toDouble? rfl, Value.ofNumber_ofInt]
  | long n =>
    obtain ⟨hwide, x, hx⟩ := hv
    have hn : (Double.ofInt n.toInt).toInt? = some n.toInt := by
      rw [Double.ofInt_of_toInt? hx, Double.toInt?_dropZeroSign, hx]
    rw [roundTrip_of_toDouble? rfl, Value.ofNumber_of_toInt? hn, Value.ofInteger, if_neg hwide]
  | number x => rw [roundTrip_of_toDouble? rfl, Value.ofNumber_of_wide hv]
  | date x =>
    show (Value.date (Instant.ofMillis x.millis)).substance = (Value.date x).substance
    rcases hv with hempty | hfinite
    · obtain ⟨ms⟩ := x
      cases ms with
      | nan => rfl
      | infinity | finite => exact Bool.noConfusion hempty
    · rw [Instant.ofMillis, if_pos hfinite]
  | object id => rw [roundTrip_object hwrapped hv]
  | transient d =>
    obtain ⟨rfl, hnone⟩ := hv
    show (h.classify .transient d).2.substance = (Value.transient d).substance
    rw [classify, hnone]
    rfl
  | persistent p =>
    obtain ⟨rfl, hnone⟩ := hv
    show (h.classify .persistent p.held).2.substance = (Value.persistent p).substance
    rw [classify, hnone]
    rfl
  | type | marker => contradiction

end Script.Heap

namespace Script

/-! ## 5. In every session -/

/-- **In every session that a run leads to, one crossing settles a value**: a second one leaves its
kind and what it holds as they are.  The first one leaves them as they are for exactly the values
that are settled. -/
theorem roundTrip_reachable {s : Session} (hs : s.Reachable) (lifetime : Lifetime)
    (v : Value Datum) :
    let once := s.heap.roundTrip lifetime v
    let twice := once.1.roundTrip lifetime once.2
    (twice.2.kind = once.2.kind ∧ twice.2.substance = once.2.substance) ∧
      (once.2.substance = v.substance ↔ s.heap.Settled lifetime v) := by
  intro once twice
  have hwrapped : ∀ id d, s.heap.wrapper? id = some d → s.heap.native? d = some id :=
    fun id d => hs.native?_wrapper
  have hsettled : s.heap.Settled lifetime once.2 := s.heap.settled_classify lifetime _
  obtain ⟨hwrappers, hnative⟩ :=
    s.heap.wrappers_native?_classify lifetime (v.toHandle s.heap.runtime)
  -- the heap after the first crossing has the same wrappers, so what is settled there is the same
  have hwrapped' : ∀ id d, once.1.wrapper? id = some d → once.1.native? d = some id := by
    intro id d hd
    have hd' : s.heap.wrapper? id = some d := by
      rw [← hd, Heap.wrapper?, Heap.wrapper?, ← hwrappers]
      rfl
    rw [← hwrapped id d hd', ← hnative]
    rfl
  have htwice : twice.2.substance = once.2.substance :=
    Heap.substance_roundTrip hwrapped' ((Heap.settled_congr hwrappers hnative _).mpr hsettled)
  refine ⟨⟨Value.kind_eq_of_substance_eq htwice, htwice⟩, fun hsame => ?_,
    fun hv => Heap.substance_roundTrip hwrapped hv⟩
  rw [← Heap.settled_substance_iff, ← hsame, Heap.settled_substance_iff]
  exact hsettled

/-- Of two registered objects one is released.  The other one is settled, and so is an integer of 64
bits that a floating-point number can hold.  Settled by one crossing are an odd integer beyond
2 ^ 53, the last one before 2 ^ 63, minus zero, the released object, a placeholder, and handles to a
number and to the registered object; the detached wrapper stays a handle. -/
theorem roundTrip_after_release :
    let commands : List Command := [.object (.register "a"), .object (.register "b"),
      .object (.unregister ⟨1⟩ none)]
    let values : List (Value Datum) := [.long (2 ^ 53 + 1), .long (2 ^ 63 - 1),
      .number (.zero true), .object ⟨1⟩, .marker, .transient (.atom (.number (Double.ofInt 1))),
      .persistent ⟨0, .object 1⟩, .transient (.object 0)]
    ∃ s replies, (default : Session).run commands = some (s, replies) ∧
      (∀ lifetime, ∀ v ∈ [Value.object ⟨2⟩, .long (2 ^ 53)],
        (s.heap.roundTrip lifetime v).2.substance = v.substance) ∧
      values.map (fun v => (s.heap.roundTrip .transient v).2) =
        [.long (2 ^ 53), .number (Double.ofInt (2 ^ 63)), .integer 0, .null, .null, .integer 1,
          .object ⟨2⟩, .transient (.object 0)] ∧
      ∀ lifetime, ∀ v ∈ values,
        let once := s.heap.roundTrip lifetime v
        (once.1.roundTrip lifetime once.2).2.substance = once.2.substance := by
  intro commands values
  have hfacts : ((default : Session).run commands).map (fun p =>
      (p.1.heap.isLive ⟨2⟩, values.map (fun v => (p.1.heap.roundTrip .transient v).2))) =
        some (true, [.long (2 ^ 53), .number (Double.ofInt (2 ^ 63)), .integer 0, .null, .null,
          .integer 1, .object ⟨2⟩, .transient (.object 0)]) := by decide +kernel
  obtain ⟨⟨s, replies⟩, hrun, hpair⟩ := Option.map_eq_some_iff.mp hfacts
  obtain ⟨hlive, hvalues⟩ := Prod.mk.inj hpair
  have hs : s.Reachable := ⟨commands, replies, hrun⟩
  refine ⟨s, replies, hrun, fun lifetime v hv => ?_, hvalues, fun lifetime v _ => ?_⟩
  · refine (roundTrip_reachable hs lifetime v).2.mpr ?_
    simp only [List.mem_cons, List.not_mem_nil, or_false] at hv
    rcases hv with rfl | rfl
    · exact hlive
    · exact ⟨by decide, Double.ofInt (2 ^ 53), by decide +kernel⟩
  · exact (roundTrip_reachable hs lifetime v).1.2

end Script
end Interchange
