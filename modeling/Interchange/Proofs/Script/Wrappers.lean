/-
# Wrappers and what they stand for

Which object stands for which native object is kept twice: in the table of wrappers, and inside each
wrapper, which the script may share and keep after a release.  In every session that a run leads to
both agree: a number is registered exactly if some object wraps it, that object is the one that the
table holds, and it wraps nothing else.  A release takes one object out of both and leaves alone all
others, and every property.

* `wrapped_step`: each step of the heap keeps the wrappers of the table attached;
* `Detaches`: what a release does;
* `agrees_reachable`: the table and the objects agree, and each release detaches one wrapper.
-/
import Interchange.Proofs.Script.Balance

namespace Interchange.Script

namespace Heap

/-! ## 1. Detaching an object -/

theorem get_detach (h : Heap) (wrappers : Table ObjectId Ref) (r : Ref) (d : Datum) (key : String) :
    get { h with store := detach h.store r, wrappers := wrappers } d key = h.get d key := by
  cases d with
  | atom | function => rfl
  | object q =>
    unfold get Store.content?
    dsimp only
    rw [Store.cell?_detach]
    by_cases hq : q = r
    · rw [if_pos hq, hq]
      cases h.store.cell? r with
      | none => rfl
      | some c => rcases c with ⟨_, _ | _ | _⟩ <;> rfl
    · rw [if_neg hq]

/-! ## 2. Wrappers stay attached -/

/-- The wrapper that the table holds for a number wraps that number, as long as it is there. -/
structure Wrapped (h : Heap) : Prop where
  lt_length : ∀ id r, h.wrappers.get? id = some r → r < h.store.cells.length
  native : ∀ id r c, h.wrappers.get? id = some r → h.store.cell? r = some c →
    c.content.native? = some id

theorem wrapped_default : (default : Heap).Wrapped where
  lt_length _ _ h := absurd h (by simp [default])
  native _ _ _ h := absurd h (by simp [default])

/-- What leaves alone which cells wrap an object leaves the wrappers attached. -/
theorem wrapped_frame {h : Heap} {store : Store} (hw : h.Wrapped) (hf : h.store.Frame store) :
    Wrapped { h with store } where
  lt_length id r hid := Nat.lt_of_lt_of_le (hw.lt_length id r hid) hf.length_le
  native id r c' hid hc' := by
    obtain ⟨c, hc, hnative⟩ := hf.kept r c' (hw.lt_length id r hid) hc'
    rw [hnative, hw.native id r c hid hc]

/-- A new wrapper wraps its number, and the others what they wrapped. -/
theorem wrapped_register {h : Heap} (hw : h.Wrapped) : h.register.1.Wrapped := by
  have hnew : Wrapped ⟨(h.store.alloc (.object (some ⟨h.lastId + 1⟩) .empty)).1,
      h.wrappers.insert ⟨h.lastId + 1⟩ h.store.cells.length, h.lastId + 1⟩ := by
    refine ⟨fun id r hid => ?_, fun id r c hid hc => ?_⟩
    all_goals rw [Table.get?_insert] at hid
    · rw [Store.length_alloc]
      split at hid
      · cases hid
        exact Nat.lt_succ_self _
      · exact Nat.lt_succ_of_lt (hw.lt_length id r hid)
    · rw [Store.cell?_alloc] at hc
      split at hid
      · next hnewid =>
        cases hid
        rw [if_pos rfl] at hc
        cases hc
        rw [hnewid]
        rfl
      · rw [if_neg (Nat.ne_of_lt (hw.lt_length id r hid))] at hc
        exact hw.native id r c hid hc
  exact wrapped_frame hnew (.retain _ [h.store.cells.length])

/-- The wrapper of another number is not the one that is detached. -/
theorem wrapped_unregister {h h' : Heap} {id : ObjectId} {d : Datum} (hw : h.Wrapped)
    (hu : h.unregister id = .ok (h', d)) : h'.Wrapped := by
  obtain ⟨r, hget, rfl, rfl⟩ := exists_of_unregister hu
  refine ⟨fun id' r' hid' => ?_, fun id' r' c' hid' hc' => ?_⟩
  all_goals
    rw [Table.get?_erase] at hid'
    split at hid'
    · contradiction
  · rw [Store.length_detach]
    exact hw.lt_length id' r' hid'
  · next hne =>
    rw [Store.cell?_detach] at hc'
    split at hc'
    · next hr =>
      obtain ⟨c, hc, -⟩ := Option.map_eq_some_iff.mp hc'
      have hid := hw.native id' r c (hr ▸ hid') hc
      rw [hw.native id r c hget hc] at hid
      exact absurd (Option.some.inj hid).symm hne
    · exact hw.native id' r' c' hid' hc'

/-- **Each step keeps the wrappers of the table attached.**  This is the other direction of
`registered_step`: there cells have their entries, here entries have their cells, as long as the
cells are not freed. -/
theorem wrapped_step {h h' : Heap} (hw : h.Wrapped) (hs : h.Step h') : h'.Wrapped := by
  cases hs with
  | frame hframe => exact wrapped_frame hw hframe
  | register => exact wrapped_register hw
  | unregister hu => exact wrapped_unregister hw hu

theorem wrapped_steps {h h' : Heap} (hw : h.Wrapped) (hs : h.Steps h') : h'.Wrapped := by
  induction hs with
  | refl => exact hw
  | tail _ hstep ih => exact wrapped_step ih hstep

/-! ## 3. Agreement -/

/-- The table of wrappers and the objects tell the same. -/
structure Agrees (h : Heap) : Prop where
  /-- A datum resolves to a number exactly if it is the wrapper of that number. -/
  resolve_iff : ∀ d id, h.resolve d = some id ↔ h.wrapper? id = some d
  /-- What an object wraps is registered. -/
  isLive_of_native : ∀ d id, h.native? d = some id → h.isLive id = true
  /-- A number that is registered has a wrapper, and the wrapper wraps exactly that number. -/
  exists_wrapper : ∀ id, h.isLive id = true → ∃ d, h.wrapper? id = some d ∧ h.native? d = some id
  /-- Two numbers never share a wrapper. -/
  wrapper_inj : ∀ id id' d, h.wrapper? id = some d → h.wrapper? id' = some d → id = id'

/-- From `h` to `h'` the native object of a number is released: its wrapper `d` is detached, and
nothing else changes. -/
structure Detaches (h : Heap) (id : ObjectId) (d : Datum) (h' : Heap) : Prop where
  /-- It is the wrapper of that number which is detached. -/
  wrapper : h.wrapper? id = some d
  detached : h'.native? d = none
  wrapper_released : h'.wrapper? id = none
  native_other : ∀ e, e ≠ d → h'.native? e = h.native? e
  wrapper_other : ∀ id', id' ≠ id → h'.wrapper? id' = h.wrapper? id'
  properties : ∀ e key, h'.get e key = h.get e key

/-- **A number that is registered can be released, and this detaches its wrapper alone.**  The
wrapper is left as an object with all its properties, which a script may go on to use. -/
theorem unregister_detaches {h : Heap} {id : ObjectId} (hlive : h.isLive id = true) :
    ∃ h' d, h.unregister id = .ok (h', d) ∧ h.Detaches id d h' := by
  obtain ⟨r, hget⟩ := Option.isSome_iff_exists.mp hlive
  refine ⟨_, _, unregister_of_get? hget, ?_, ?_, ?_, fun e he => ?_, fun id' hid' => ?_,
    fun e key => h.get_detach _ r e key⟩
  · rw [wrapper?, hget]
    rfl
  · rw [native?_object, Store.native?_detach, if_pos rfl]
  · simp only [wrapper?, Table.get?_erase, if_pos, Option.map_none]
  · cases e with
    | atom | function => rfl
    | object q =>
      have hq : q ≠ r := fun hq => he (congrArg Datum.object hq)
      rw [native?_object, native?_object, Store.native?_detach, if_neg hq]
  · simp only [wrapper?, Table.get?_erase, if_neg hid']

end Heap

/-- The wrapper of a registered number is there, and wraps that number.  That it is there comes from
the counts, since the table is one of the roots. -/
theorem Session.Reachable.native?_wrapper {s : Session} (hs : s.Reachable) {id : ObjectId}
    {d : Datum} (hd : s.heap.wrapper? id = some d) : s.heap.native? d = some id := by
  have hwrapped := Heap.wrapped_steps Heap.wrapped_default hs.steps
  obtain ⟨r, hget, rfl⟩ := Option.map_eq_some_iff.mp hd
  have hroot : r ∈ s.roots :=
    List.mem_append_left _ (List.mem_append_left _ (List.mem_append_left _
      (Table.mem_values_of_get? hget)))
  obtain ⟨c, hc⟩ := hs.sound.balanced.cell?_of_mem (List.mem_append_left _ hroot)
  rw [Heap.native?_object, Store.native?_of_cell? hc]
  exact hwrapped.native id r c hget hc

/-- **In every session that a run leads to, the table of wrappers and the objects agree**, and each
number that is registered can be released, which detaches its wrapper and changes nothing else. -/
theorem agrees_reachable {s : Session} (hs : s.Reachable) :
    s.heap.Agrees ∧ ∀ id, s.heap.isLive id = true →
      ∃ h' d, s.heap.unregister id = .ok (h', d) ∧ s.heap.Detaches id d h' := by
  have hlive : ∀ {id d}, s.heap.wrapper? id = some d → s.heap.isLive id = true := by
    intro id d hd
    obtain ⟨r, hget, -⟩ := Option.map_eq_some_iff.mp hd
    rw [Heap.isLive, Table.contains, hget]
    rfl
  refine ⟨⟨fun d id => ⟨hs.registered.wrapper?_of_resolve, fun hd => ?_⟩, fun d id hid => ?_,
    fun id hid => ?_, fun id id' d hd hd' => ?_⟩, fun id hid => Heap.unregister_detaches hid⟩
  · exact Option.filter_eq_some_iff.mpr ⟨hs.native?_wrapper hd, hlive hd⟩
  · cases d with
    | atom | function => contradiction
    | object r =>
      rw [Heap.native?_object] at hid
      rw [Heap.isLive, Table.contains, hs.registered.wrapper r id hid]
      rfl
  · obtain ⟨r, hget⟩ := Option.isSome_iff_exists.mp hid
    have hd : s.heap.wrapper? id = some (.object r) := by
      rw [Heap.wrapper?, hget]
      rfl
    exact ⟨.object r, hd, hs.native?_wrapper hd⟩
  · have hid := hs.native?_wrapper hd
    rw [hs.native?_wrapper hd'] at hid
    exact (Option.some.inj hid).symm

/-- Of two registered objects that refer to each other one is released, and stays with its
property. -/
theorem agrees_after_release :
    let commands : List Command := [.object (.register "a"), .object (.register "b"),
      .data (.set "a" "next" "b"), .data (.set "b" "next" "a"), .data (.drop "b"),
      .object (.unregister ⟨2⟩ none)]
    ∃ s replies, (default : Session).run commands = some (s, replies) ∧
      s.heap.Agrees ∧ s.heap.isLive ⟨1⟩ = true ∧ s.heap.native? (.object 1) = none ∧
      s.heap.get (.object 1) "next" = .object 0 ∧
      ∃ h', s.heap.unregister ⟨1⟩ = .ok (h', .object 0) ∧
        s.heap.Detaches ⟨1⟩ (.object 0) h' := by
  intro commands
  have hfacts : ((default : Session).run commands).map (fun p => (p.1.heap.isLive ⟨1⟩,
      p.1.heap.native? (.object 1), p.1.heap.get (.object 1) "next",
      p.1.heap.wrapper? ⟨1⟩)) = some (true, none, .object 0, some (.object 0)) := by
    decide +kernel
  obtain ⟨⟨s, replies⟩, hrun, hvalues⟩ := Option.map_eq_some_iff.mp hfacts
  simp only [Prod.mk.injEq] at hvalues
  obtain ⟨hlive, hnative, hnext, hwrapper⟩ := hvalues
  obtain ⟨hagrees, hrelease⟩ := agrees_reachable ⟨commands, replies, hrun⟩
  obtain ⟨h', d, hu, hd⟩ := hrelease ⟨1⟩ hlive
  obtain rfl : d = .object 0 := Option.some.inj (hd.wrapper.symm.trans hwrapper)
  exact ⟨s, replies, hrun, hagrees, hlive, hnative, hnext, h', hu, hd⟩

end Interchange.Script
