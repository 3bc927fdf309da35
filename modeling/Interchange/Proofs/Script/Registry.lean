/-
# The registry of native objects

The table of wrappers and the cells both record which wrapper stands for which native object.  In
every heap that steps lead to, a cell that wraps an object is the wrapper that the table holds for
that object.  A number that was given is never given again, so the wrapper of a released object,
which wraps nothing any more, cannot come to stand for a newer one.

* `registered_step`: each step keeps this;
* `Registered.wrapper?_of_resolve`: an object that a datum resolves to has that datum as its
  wrapper.
-/
import Interchange.Proofs.Script.Steps

namespace Interchange.Script

/-! ## 1. What cells wrap after a change -/

/-- The content of a cell that no longer wraps an object. -/
def Content.detached : Content → Content
  | .object _ properties => .object none properties
  | content => content

namespace Store

theorem native?_alloc (s : Store) (content : Content) (r : Ref) :
    (s.alloc content).1.native? r =
      if r = s.cells.length then content.native? else s.native? r := by
  unfold native? content?
  rw [cell?_alloc]
  split <;> rfl

/-- **Only the cell that is detached changes**, and only in what it wraps: its count and its
properties stay.  A reference to a function, a box or a freed cell detaches nothing, and the
equation holds there too. -/
theorem cell?_detach (s : Store) (r q : Ref) :
    (Heap.detach s r).cell? q =
      if q = r then (s.cell? r).map fun c => ⟨c.count, c.content.detached⟩ else s.cell? q := by
  unfold Heap.detach
  split
  · next native properties hcontent =>
    obtain ⟨c, hc, hobject⟩ := Option.map_eq_some_iff.mp hcontent
    rw [update, hc, cell?_put hc, Option.map_some, hobject]
    rfl
  · next hother =>
    split
    · next hq =>
      rw [hq]
      cases hc : s.cell? r with
      | none => rfl
      | some c =>
        have hcontent := content?_of_cell? hc
        obtain ⟨count, content⟩ := c
        cases content with
        | object native properties => exact absurd hcontent (hother native properties)
        | function | box => rfl
    · rfl

theorem native?_detach (s : Store) (r q : Ref) :
    (Heap.detach s r).native? q = if q = r then none else s.native? q := by
  unfold native? content?
  rw [cell?_detach]
  split
  · cases s.cell? r with
    | none => rfl
    | some c => rcases c with ⟨_, _ | _ | _⟩ <;> rfl
  · rfl

theorem length_detach (s : Store) (r : Ref) :
    (Heap.detach s r).cells.length = s.cells.length := by
  unfold Heap.detach
  split
  · next native properties hcontent =>
    obtain ⟨c, hc, -⟩ := Option.map_eq_some_iff.mp hcontent
    rw [update, hc]
    exact List.length_set ..
  · rfl

end Store

namespace Heap

theorem native?_object (h : Heap) (r : Ref) : h.native? (.object r) = h.store.native? r := by
  simp only [native?, Store.native?]
  rcases h.store.content? r with _ | ⟨_, _⟩ | _ | _ <;> rfl

/-! ## 2. The invariant -/

theorem unregister_of_get? {h : Heap} {id : ObjectId} {r : Ref}
    (hget : h.wrappers.get? id = some r) : h.unregister id =
      .ok ({ h with store := detach h.store r, wrappers := h.wrappers.erase id }, .object r) := by
  rw [unregister, hget]

/-- A release that succeeds detaches the wrapper that the table held. -/
theorem exists_of_unregister {h h' : Heap} {id : ObjectId} {d : Datum}
    (hu : h.unregister id = .ok (h', d)) : ∃ r, h.wrappers.get? id = some r ∧
      h' = { h with store := detach h.store r, wrappers := h.wrappers.erase id } ∧
      d = .object r := by
  cases hget : h.wrappers.get? id with
  | none =>
    rw [unregister, hget] at hu
    contradiction
  | some r =>
    rw [unregister_of_get? hget] at hu
    cases hu
    exact ⟨r, rfl, rfl, rfl⟩

/-- The table of wrappers covers what cells wrap, and holds only numbers that were given. -/
structure Registered (h : Heap) : Prop where
  number_le : ∀ id r, h.wrappers.get? id = some r → id.number ≤ h.lastId
  wrapper : ∀ r id, h.store.native? r = some id → h.wrappers.get? id = some r

theorem registered_default : (default : Heap).Registered where
  number_le _ _ h := absurd h (by simp [default])
  wrapper _ _ h := absurd h (by simp [Store.native?, Store.content?, Store.cell?, default])

theorem get?_wrappers_register (h : Heap) (id : ObjectId) :
    h.register.1.wrappers.get? id =
      if id = ⟨h.lastId + 1⟩ then some h.store.cells.length else h.wrappers.get? id :=
  Table.get?_insert ..

theorem registered_register {h : Heap} (hr : h.Registered) : h.register.1.Registered where
  number_le id r hid := by
    show id.number ≤ h.lastId + 1
    rw [get?_wrappers_register] at hid
    split at hid
    · next hnew => exact Nat.le_of_eq (congrArg ObjectId.number hnew)
    · exact Nat.le_succ_of_le (hr.number_le id r hid)
  wrapper r id hid := by
    have hid : (h.store.alloc (.object (some ⟨h.lastId + 1⟩) .empty)).1.native? r = some id :=
      (Store.Frame.retain _ [h.store.cells.length]).native?_eq_some hid
    rw [Store.native?_alloc] at hid
    rw [get?_wrappers_register]
    split at hid
    · next hlength =>
      obtain rfl : _ = id := Option.some.inj hid
      rw [if_pos rfl, hlength]
    · have hold := hr.wrapper r id hid
      have hnew : id ≠ ⟨h.lastId + 1⟩ := by
        rintro rfl
        exact absurd (hr.number_le _ r hold) (Nat.not_succ_le_self h.lastId)
      rw [if_neg hnew, hold]

theorem registered_unregister {h h' : Heap} {id : ObjectId} {d : Datum} (hr : h.Registered)
    (hu : h.unregister id = .ok (h', d)) : h'.Registered := by
  obtain ⟨r, hget, rfl, -⟩ := exists_of_unregister hu
  refine ⟨fun id' r' hid' => ?_, fun r' id' hid' => ?_⟩
  · rw [Table.get?_erase] at hid'
    split at hid'
    · contradiction
    · exact hr.number_le id' r' hid'
  · rw [Store.native?_detach] at hid'
    split at hid'
    · contradiction
    · next hne =>
      have hold := hr.wrapper r' id' hid'
      rw [Table.get?_erase, if_neg, hold]
      rintro rfl
      exact hne (Option.some.inj (hold.symm.trans hget))

/-- **Each step keeps the table and the cells in agreement.**  A frame makes no cell wrap an object.
Registering makes one, under a number above all in the table; unregistering detaches the one cell
whose entry it removes. -/
theorem registered_step {h h' : Heap} (hr : h.Registered) (hs : h.Step h') : h'.Registered := by
  cases hs with
  | frame hframe =>
    exact ⟨hr.number_le, fun r id hid => hr.wrapper r id (hframe.native?_eq_some hid)⟩
  | register => exact registered_register hr
  | unregister hu => exact registered_unregister hr hu

theorem registered_steps {h h' : Heap} (hr : h.Registered) (hs : h.Steps h') : h'.Registered := by
  induction hs with
  | refl => exact hr
  | tail _ hstep ih => exact registered_step ih hstep

/-! ## 3. Resolving and wrapping -/

/-- **An object that a datum resolves to has that datum as its wrapper.**  An atom or a function
wraps nothing, and a cell that wraps a number is the entry of the table under it. -/
theorem Registered.wrapper?_of_resolve {h : Heap} (hr : h.Registered) {d : Datum} {id : ObjectId}
    (hd : h.resolve d = some id) : h.wrapper? id = some d := by
  obtain ⟨hnative, -⟩ := Option.filter_eq_some_iff.mp hd
  cases d with
  | atom | function => contradiction
  | object r =>
    rw [native?_object] at hnative
    rw [wrapper?, hr.wrapper r id hnative]
    rfl

end Heap

/-- In every session that a run leads to, the table and the cells agree. -/
theorem Session.Reachable.registered {s : Session} (hs : s.Reachable) : s.heap.Registered :=
  Heap.registered_steps Heap.registered_default hs.steps

end Interchange.Script
