/-
# What overwriting a slot lets go

A slot for a value is written to in one way: references are taken for what is stored, then those of
what was there are released.  So a slot that holds a copy of a persistent handle lets go one copy
and nothing else.  What the handle is on loses a reference only when that was the last copy.

* `Grows`: taking references lowers no count;
* `count_release_one`: releasing a reference lowers the count by one, whatever is freed on the way;
* `writes_perform`: what a command does that writes to a slot;
* `counts_reachable`: what the counts of a session are, and how overwriting a slot changes them.
-/
import Interchange.Proofs.Script.Holders
import Interchange.Proofs.Script.Wrappers

namespace Interchange.Script

namespace Store

/-! ## 1. Counts after a change -/

/-- No count goes down, and cells keep their shapes. -/
structure Grows (s s' : Store) : Prop where
  extends_to : s.Extends s'
  count_le : ∀ r, s.count r ≤ s'.count r

namespace Grows

variable {s s' s'' : Store}

theorem refl (s : Store) : s.Grows s := ⟨.refl s, fun _ => Nat.le_refl _⟩

theorem trans (h : s.Grows s') (h' : s'.Grows s'') : s.Grows s'' :=
  ⟨h.extends_to.trans h'.extends_to, fun r => Nat.le_trans (h.count_le r) (h'.count_le r)⟩

theorem retainOne (s : Store) (r : Ref) : s.Grows (s.retainOne r) where
  extends_to := .retainOne s r
  count_le q := by
    unfold Store.retainOne
    split
    · exact Nat.le_refl _
    · next c hc =>
      rw [count_put hc]
      split
      · next hq =>
        rw [hq, count_of_cell? hc]
        exact Nat.le_succ _
      · exact Nat.le_refl _

/-- **Taking references lowers no count.** -/
theorem retain (s : Store) (refs : List Ref) : s.Grows (s.retain refs) := by
  induction refs generalizing s with
  | nil => exact .refl s
  | cons r rest ih => exact (retainOne s r).trans (ih _)

theorem alloc (s : Store) (content : Content) : s.Grows (s.alloc content).1 where
  extends_to := .alloc trivial
  count_le q := by
    unfold count
    rw [cell?_alloc]
    split
    · next hq =>
      have hnone : s.cell? q = none := by
        cases hc : s.cell? q with
        | none => rfl
        | some c => exact absurd (lt_length_of_cell? hc) (hq ▸ Nat.lt_irrefl _)
      rw [hnone]
      exact Nat.zero_le _
    · exact Nat.le_refl _

end Grows

variable {s : Store} {r b : Ref}

theorem release_nil (s : Store) : s.release [] = s := by rw [release]

theorem count_release_of_none (hr : r < s.cells.length) (h : s.cell? r = none)
    (refs : List Ref) : (s.release refs).count r = 0 := by
  cases hc : (s.release refs).cell? r with
  | none => exact count_of_freed hc
  | some c' =>
    have hkeeps : s.Extends (s.release refs) := .release s refs
    obtain ⟨c, hcell, -⟩ := hkeeps.kept r c' hr hc
    rw [h] at hcell
    contradiction

/-- **Releasing a reference lowers the count by one**, whatever is freed on the way.  If it was the
last one the cell is freed first and what it held is released after, so that a cycle back to it
finds a cell that is not there. -/
theorem count_release_one (h : 0 < s.count r) : (s.release [r]).count r + 1 = s.count r := by
  cases hc : s.cell? r with
  | none =>
    rw [count_of_freed hc] at h
    exact absurd h (Nat.lt_irrefl 0)
  | some c =>
    rw [count_of_cell? hc] at h ⊢
    rw [release, hc]
    dsimp only
    split
    · next hlast =>
      have hfreed : (s.put r none).cell? r = none := by rw [cell?_put hc, if_pos rfl]
      have hlt : r < (s.put r none).cells.length := by
        rw [put, List.length_set]
        exact lt_length_of_cell? hc
      rw [count_release_of_none hlt hfreed]
      omega
    · rw [release_nil, count_put hc, if_pos rfl]
      show c.count - 1 + 1 = c.count
      omega

/-- Releasing one of several references to a cell changes no other count, for nothing is freed. -/
theorem count_release_shared (h : 1 < s.count b) (hr : r ≠ b) :
    (s.release [b]).count r = s.count r := by
  cases hc : s.cell? b with
  | none =>
    rw [count_of_freed hc] at h
    exact absurd h (Nat.not_lt_zero 1)
  | some c =>
    rw [count_of_cell? hc] at h
    rw [release, hc]
    dsimp only
    rw [if_neg (Nat.not_le.mpr h), release_nil, count_put hc, if_neg hr]

/-- Releasing the last reference to a box releases what it holds. -/
theorem count_release_last {d : Datum} (hb : s.content? b = some (.box d)) (h : s.count b = 1)
    (hr : r ∈ d.refs) (hne : r ≠ b) (hpos : 0 < s.count r) :
    (s.release [b]).count r + 1 = s.count r := by
  obtain ⟨c, hc, hbox⟩ := Option.map_eq_some_iff.mp hb
  have hrefs : d.refs = [r] := by
    cases d with
    | atom => exact absurd hr List.not_mem_nil
    | object q | function q =>
      obtain rfl := List.mem_singleton.mp hr
      rfl
  have hput : (s.put b none).count r = s.count r := by rw [count_put hc, if_neg hne]
  have hrelease : s.release [b] = (s.put b none).release [r] := by
    rw [count_of_cell? hc] at h
    rw [release, hc]
    dsimp only
    rw [if_pos (Nat.le_of_eq h), hbox, Content.refs, hrefs, List.append_nil]
  rw [← hput] at hpos
  rw [hrelease, count_release_one hpos, hput]

end Store

/-! ## 2. Writing to a slot -/

/-- The slot for a value that a command writes to. -/
def Command.slot? : Command → Option String
  | .value (.plain target _) | .value (.keep target _ _) | .value (.classify _ target _)
  | .value (.assign target _ _) | .value (.copy _ target) | .value (.drop target)
  | .value (.clear target) | .value (.append target _) | .value (.act target _)
  | .handle (.toValue _ target) => some target
  | _ => none

namespace Session

/-- References are taken, and nothing else happens. -/
structure Takes (s t : Session) (refs : List Ref) : Prop where
  values : t.values = s.values
  handles : t.handles = s.handles
  grows : s.heap.store.Grows t.heap.store
  store_of_nil : refs = [] → t.heap.store = s.heap.store

/-- What happens when a slot is written to. -/
inductive Writes (name : String) : Session → Session → Prop where
  | same (s : Session) : Writes name s s
  | drop (s : Session) : Writes name s (s.dropValue name)
  /-- The references of the new value are taken, then those of the old one are released. -/
  | put {s t : Session} {v : Value Datum} :
      s.Takes t v.refs → Writes name s (t.putValue name v)
  /-- The slot is cleared first. -/
  | clear {s s' : Session} : Writes name (s.putValue name .undefined) s' → Writes name s s'

variable {s s' : Session} {name : String}

theorem store_putValue (s : Session) (name : String) (v : Value Datum) :
    (s.putValue name v).heap.store = s.heap.store.release (s.values.listAt Value.refs name) := rfl

theorem store_dropValue (s : Session) (name : String) :
    (s.dropValue name).heap.store = s.heap.store.release (s.values.listAt Value.refs name) := rfl

theorem values_putValue (s : Session) (name : String) (v : Value Datum) :
    (s.putValue name v).values = s.values.insert name v := rfl

theorem takes_nil {refs : List Ref} (h : refs = []) : s.Takes s refs := by
  rw [h]
  exact ⟨rfl, rfl, .refl _, fun _ => rfl⟩

theorem takes_retain (s : Session) (refs : List Ref) : s.Takes (s.retain refs) refs where
  values := rfl
  handles := rfl
  grows := .retain _ refs
  store_of_nil h := by
    rw [h]
    rfl

theorem takes_keep (s : Session) (lifetime : Lifetime) (d : Datum) :
    s.Takes { s with heap := (s.heap.keep lifetime d).1 } (s.heap.keep lifetime d).2.refs := by
  cases lifetime with
  | transient => exact s.takes_retain d.refs
  | persistent =>
    refine ⟨rfl, rfl, (Store.Grows.retain _ d.refs).trans (.alloc _ _), fun h => ?_⟩
    exact absurd h (List.cons_ne_nil _ _)

theorem writes_classify (s : Session) (name : String) (lifetime : Lifetime) (d : Datum) :
    Writes name s (s.classify name lifetime d).1 := by
  unfold classify Heap.classify
  cases hv : Value.recognise s.heap.runtime d with
  | some v => exact .put (takes_nil (refs_of_recognise hv))
  | none => exact .put (s.takes_keep lifetime d)

/-- **A command that writes to a slot takes references, and releases those of what was there.**  All
ways to store a value in a slot have this one shape; `assign` clears the slot first, by the same
shape with nothing taken. -/
theorem writes_perform {command : Command} {reply : Reply}
    (h : s.perform command = some (s', reply)) (hslot : command.slot? = some name) :
    Writes name s s' := by
  cases command with
  | data command => contradiction
  | object command => contradiction
  | handle command =>
    cases command with
    | toValue source target =>
      cases hslot
      obtain ⟨p, -, h⟩ := Option.bind_eq_some_iff.mp h
      cases h
      exact .put (s.takes_retain p.refs)
    | hold | copy | take | get | drop | compare | examine => contradiction
  | value command =>
    cases command with
    | plain target value =>
      cases hslot
      cases h
      exact .put (takes_nil (refs_ofPlain value))
    | keep target lifetime source =>
      cases hslot
      obtain ⟨d, -, h⟩ := Option.bind_eq_some_iff.mp h
      cases h
      exact .put (s.takes_keep lifetime d)
    | classify source target lifetime =>
      cases hslot
      obtain ⟨d, -, h⟩ := Option.bind_eq_some_iff.mp h
      cases h
      exact s.writes_classify name lifetime d
    | assign target source lifetime =>
      cases hslot
      obtain ⟨-, -, h⟩ := Option.bind_eq_some_iff.mp h
      obtain ⟨d, -, h⟩ := Option.bind_eq_some_iff.mp h
      cases h
      exact .clear (writes_classify _ name lifetime d)
    | copy source target =>
      cases hslot
      obtain ⟨v, -, h⟩ := Option.bind_eq_some_iff.mp h
      cases h
      exact .put (s.takes_retain v.refs)
    | drop target =>
      cases hslot
      cases h
      exact .drop s
    | clear target =>
      cases hslot
      obtain ⟨v, -, h⟩ := Option.bind_eq_some_iff.mp h
      cases h
      exact .put (v := .undefined) (takes_nil rfl)
    | append target suffix =>
      cases hslot
      obtain ⟨v, -, h⟩ := Option.bind_eq_some_iff.mp h
      split at h
      · cases h
        exact .same s
      · next w hw =>
        cases h
        refine .put (takes_nil ?_)
        cases v with
        | string => cases hw; rfl
        | undefined | null | boolean | integer | long | number | date | object | transient
        | persistent | type | marker => contradiction
    | act target action =>
      cases hslot
      obtain ⟨v, -, h⟩ := Option.bind_eq_some_iff.mp h
      split at h
      · cases h
        exact .put (takes_nil rfl)
      · cases h
        exact .same s
    | toHandle | compare | examine => contradiction

/-! ## 3. What a slot that is written to leaves alone -/

theorem Writes.handles_eq (h : Writes name s s') : s'.handles = s.handles := by
  induction h with
  | same | drop => rfl
  | put ht => exact ht.handles
  | clear _ ih => exact ih

theorem Writes.erase_eq (h : Writes name s s') :
    s'.values.erase name = s.values.erase name := by
  induction h with
  | same => rfl
  | drop s => exact s.values.erase_erase name
  | @put s t v ht =>
    rw [← ht.values]
    exact t.values.erase_insert name v
  | @clear s s' _ ih => exact ih.trans (s.values.erase_insert name .undefined)

theorem Writes.extends_to (h : Writes name s s') : s.heap.store.Extends s'.heap.store := by
  induction h with
  | same s => exact .refl _
  | drop s => exact .release _ _
  | put ht => exact ht.grows.extends_to.trans (.release _ _)
  | clear _ ih => exact Store.Keeps.trans (.release _ _) ih

/-- Where the slot held no reference, no count goes down. -/
theorem Writes.grows (h : Writes name s s') (hfree : s.values.listAt Value.refs name = []) :
    s.heap.store.Grows s'.heap.store ∧
      (s'.values.listAt Value.refs name = [] → s'.heap.store = s.heap.store) := by
  induction h with
  | same s => exact ⟨.refl _, fun _ => rfl⟩
  | drop s =>
    rw [store_dropValue, hfree, Store.release_nil]
    exact ⟨.refl _, fun _ => rfl⟩
  | @put s t v ht =>
    rw [store_putValue, values_putValue, Table.listAt_insert, ht.values, hfree, Store.release_nil]
    exact ⟨ht.grows, ht.store_of_nil⟩
  | @clear s s' _ ih =>
    have hstore : (s.putValue name .undefined).heap.store = s.heap.store := by
      rw [store_putValue, hfree, Store.release_nil]
    rw [← hstore]
    exact ih (s.values.listAt_insert Value.refs name .undefined)

/-- Where the slot held a copy of a persistent handle, what the handle is on loses a reference only
if no other copy is left. -/
theorem Writes.count_held (h : Writes name s s') (hs : s.Sound []) {p : Persistent Datum}
    (hp : s.values.get? name = some (.persistent p)) {r : Ref} (hr : r ∈ p.held.refs) :
    (1 < s.heap.store.count p.box → s.heap.store.count r ≤ s'.heap.store.count r) ∧
      (s.heap.store.count p.box = 1 → s'.values.listAt Value.refs name = [] →
        s'.heap.store.count r + 1 = s.heap.store.count r) := by
  have hlist : s.values.listAt Value.refs name = [p.box] := by
    rw [Table.listAt, hp]
    rfl
  have hcopy : p ∈ s.copies := List.mem_append_left _
    (Table.mem_listAll_iff.mpr ⟨_, Table.mem_values_of_get? hp, List.mem_singleton.mpr rfl⟩)
  have hbox := hs.content?_box hcopy
  have hne : r ≠ p.box := by
    rintro rfl
    exact Store.not_mem_refs_of_box (fun l hl => hs.fits_boxes hbox hl) hbox hr
  have hpos : 0 < s.heap.store.count r := by
    rw [hs.balanced r]
    obtain ⟨c, hc, hcontent⟩ := Option.map_eq_some_iff.mp hbox
    have hmem := Store.mem_held hc (by rw [hcontent]; exact hr)
    exact List.count_pos_iff.mpr (List.mem_append_right _ hmem)
  -- what releasing the copy does
  have hlast : s.heap.store.count p.box = 1 →
      (s.heap.store.release [p.box]).count r + 1 = s.heap.store.count r := fun hone =>
    Store.count_release_last hbox hone hr hne hpos
  cases h with
  | same =>
    refine ⟨fun _ => Nat.le_refl _, fun _ hnil => ?_⟩
    rw [hlist] at hnil
    contradiction
  | drop =>
    rw [store_dropValue, hlist]
    exact ⟨fun hmore => Nat.le_of_eq (Store.count_release_shared hmore hne).symm,
      fun hone _ => hlast hone⟩
  | @put _ t v ht =>
    rw [store_putValue, values_putValue, Table.listAt_insert, ht.values, hlist]
    refine ⟨fun hmore => ?_, fun hone hv => ?_⟩
    · have hmore' := Nat.lt_of_lt_of_le hmore (ht.grows.count_le p.box)
      rw [Store.count_release_shared hmore' hne]
      exact ht.grows.count_le r
    · rw [ht.store_of_nil hv]
      exact hlast hone
  | clear hw =>
    have hgrows := hw.grows (s.values.listAt_insert Value.refs name .undefined)
    rw [store_putValue, hlist] at hgrows
    refine ⟨fun hmore => ?_, fun hone hnil => ?_⟩
    · rw [← Store.count_release_shared hmore hne]
      exact hgrows.1.count_le r
    · rw [hgrows.2 hnil]
      exact hlast hone

/-- The copies that are left after a slot is written to. -/
theorem Writes.countP_copies (h : Writes name s s') (f : Persistent Datum → Bool) :
    (s.values.listAt Value.copies name).countP f + s'.copies.countP f =
      (s'.values.listAt Value.copies name).countP f + s.copies.countP f := by
  have hbefore := (s.values.perm_listAll_erase Value.copies name).countP_eq f
  have hafter := (s'.values.perm_listAll_erase Value.copies name).countP_eq f
  rw [h.erase_eq] at hafter
  simp only [copies, h.handles_eq, List.countP_append] at *
  omega

/-- Where the slot held a copy of a persistent handle, one count goes down by one: that of its box.
What is stored may be another copy. -/
theorem Writes.count_box (h : Writes name s s') (hs : s.Sound []) (hs' : s'.Sound [])
    {p : Persistent Datum} (hp : s.values.get? name = some (.persistent p))
    {q : Persistent Datum} (hq : q ∈ s.copies) :
    s'.heap.store.count q.box + (if q.box = p.box then 1 else 0) = s.heap.store.count q.box +
      (s'.values.listAt Value.copies name).countP (·.box = q.box) := by
  have hbox := hs.content?_box hq
  obtain ⟨c, hc, hcontent⟩ := Option.map_eq_some_iff.mp hbox
  have hbefore : s.heap.store.count q.box = s.copies.countP (·.box = q.box) :=
    hs.count_box fun content h => ⟨q.held, Option.some.inj (h.symm.trans hbox)⟩
  have hafter : s'.heap.store.count q.box = s'.copies.countP (·.box = q.box) := by
    refine hs'.count_box fun content h' => ?_
    obtain ⟨c', hc', rfl⟩ := Option.map_eq_some_iff.mp h'
    obtain ⟨c₁, hc₁, hshape⟩ := h.extends_to.kept q.box c' (Store.lt_length_of_cell? hc) hc'
    rw [hc] at hc₁
    cases hc₁
    rw [hcontent] at hshape
    cases hcontent' : c'.content with
    | box d => exact ⟨d, rfl⟩
    | object | function =>
      rw [hcontent'] at hshape
      contradiction
  have hlist : (s.values.listAt Value.copies name).countP (·.box = q.box) =
      if q.box = p.box then 1 else 0 := by
    rw [Table.listAt, hp]
    simp [Value.copies, List.countP_cons, eq_comm]
  have hcopies := h.countP_copies (·.box = q.box)
  omega

/-! ## 4. In every session -/

theorem Reachable.perform (hs : s.Reachable) {command : Command} {reply : Reply}
    (h : s.perform command = some (s', reply)) : s'.Reachable := by
  obtain ⟨commands, replies, hrun⟩ := hs
  refine ⟨commands ++ [command], replies ++ [reply], ?_⟩
  rw [run_append, hrun]
  simp [run, h]

/-- No two numbers have the same wrapper. -/
theorem Reachable.nodup_wrappers (hs : s.Reachable) : s.heap.wrappers.values.Nodup := by
  refine Table.nodup_values fun id id' r hid hid' => ?_
  have hwrapper : ∀ {id}, s.heap.wrappers.get? id = some r →
      s.heap.native? (.object r) = some id := by
    intro id hget
    refine hs.native?_wrapper ?_
    rw [Heap.wrapper?, hget]
    rfl
  exact Option.some.inj ((hwrapper hid).symm.trans (hwrapper hid'))

/-- What the counts of a session are. -/
structure Counts (s : Session) : Prop where
  /-- A new persistent handle shares its box with no copy of another. -/
  fresh : ∀ d, (s.heap.hold d).2.box ∉ s.copies.map Persistent.box
  /-- Copies that share a box are copies of one persistent handle. -/
  shared : ∀ p ∈ s.copies, ∀ q ∈ s.copies, p.box = q.box → p = q
  /-- The count of a persistent handle is the number of its copies that are left. -/
  copies : ∀ p ∈ s.copies, s.heap.store.count p.box = s.copies.countP (·.box = p.box)
  /-- The count of an object or a function is the number of its holders. -/
  holders : ∀ r, (∀ d, s.heap.store.content? r ≠ some (.box d)) →
    s.heap.store.count r = s.holders r

/-- How the counts change from `s` to `s'` where a slot is written to that held a copy of a
persistent handle. -/
structure Overwrites (s s' : Session) (name : String) (p : Persistent Datum) : Prop where
  /-- One persistent count goes down by one.  What is stored may be a copy again. -/
  copies : ∀ q ∈ s.copies, s'.heap.store.count q.box + (if q.box = p.box then 1 else 0) =
    s.heap.store.count q.box + (s'.values.listAt Value.copies name).countP (·.box = q.box)
  /-- While another copy is left, what the handle is on loses no reference. -/
  held : 1 < s.heap.store.count p.box → ∀ r ∈ p.held.refs,
    s.heap.store.count r ≤ s'.heap.store.count r
  /-- With the last copy it loses one. -/
  last : s.heap.store.count p.box = 1 → s'.values.listAt Value.refs name = [] →
    ∀ r ∈ p.held.refs, s'.heap.store.count r + 1 = s.heap.store.count r

/-- **In every session that a run leads to, the count of a persistent handle is the number of its
copies, and the count of an object or a function that of its holders.**  Writing to a slot that
holds a copy of a persistent handle lets go that copy alone. -/
theorem counts_reachable (hs : s.Reachable) :
    s.Counts ∧ ∀ command s' reply name p, s.perform command = some (s', reply) →
      command.slot? = some name → s.values.get? name = some (.persistent p) →
        s.Overwrites s' name p := by
  have hsound := hs.sound
  refine ⟨⟨fun d hmem => ?_, fun p hp q hq hbox => ?_, fun p hp => ?_, fun r hr => ?_⟩,
    fun command s' reply name p h hslot hp => ?_⟩
  · -- the cell of a new box was not there before
    obtain ⟨p, hp, hbox⟩ := List.mem_map.mp hmem
    obtain ⟨c, hc, -⟩ := Option.map_eq_some_iff.mp (hsound.content?_box hp)
    have hlength : s.heap.store.cells.length ≤ (s.heap.hold d).2.box :=
      (Store.Grows.retain s.heap.store d.refs).extends_to.length_le
    exact Nat.not_lt.mpr hlength (hbox ▸ Store.lt_length_of_cell? hc)
  · have hheld := hsound.content?_box hp
    rw [hbox, hsound.content?_box hq] at hheld
    obtain ⟨box, held⟩ := p
    obtain rfl : box = q.box := hbox
    cases hheld
    rfl
  · exact hsound.count_box fun content hcontent =>
      ⟨p.held, Option.some.inj (hcontent.symm.trans (hsound.content?_box hp))⟩
  · exact hsound.count_eq_holders hs.nodup_wrappers hr
  · have hwrites := writes_perform h hslot
    have hsound' := (hs.perform h).sound
    exact ⟨fun q hq => hwrites.count_box hsound hsound' hp hq,
      fun hmore r hr => (hwrites.count_held hsound hp hr).1 hmore,
      fun hone hnil r hr => (hwrites.count_held hsound hp hr).2 hone hnil⟩

/-- Two copies of a persistent handle are all that holds an object, which holds a function.  One of
them is cleared. -/
theorem counts_after_clear :
    let commands : List Command := [.data (.create "o" .object),
      .data (.create "f" (.function "f" .noop)), .data (.set "o" "call" "f"),
      .value (.classify "o" "v" .persistent), .value (.copy "v" "w"), .data (.drop "o")]
    ∃ s replies s' reply, (default : Session).run commands = some (s, replies) ∧
      s.perform (.value (.clear "v")) = some (s', reply) ∧ s.Counts ∧
      s.holders 0 = 1 ∧ s.holders 1 = 2 ∧ s.heap.store.count 2 = 2 ∧
      s.Overwrites s' "v" ⟨2, .object 0⟩ ∧ s'.heap.store.count 2 = 1 ∧
      s'.heap.store.count 0 = 1 := by
  intro commands
  have hfacts : ((default : Session).run commands).bind (fun p =>
      (p.1.perform (.value (.clear "v"))).map fun q => (p.1.values.get? "v",
        [p.1.holders 0, p.1.holders 1, p.1.heap.store.count 2, q.1.heap.store.count 2,
          q.1.heap.store.count 0])) =
      some (some (.persistent ⟨2, .object 0⟩), [1, 2, 2, 1, 1]) := by decide +kernel
  obtain ⟨⟨s, replies⟩, hrun, hnext⟩ := Option.bind_eq_some_iff.mp hfacts
  obtain ⟨⟨s', reply⟩, hperform, hvalues⟩ := Option.map_eq_some_iff.mp hnext
  simp only [Prod.mk.injEq, List.cons.injEq, and_true] at hvalues
  obtain ⟨hslot, hobject, hfunction, hbox, hbox', hobject'⟩ := hvalues
  obtain ⟨hcounts, hover⟩ := counts_reachable ⟨commands, replies, hrun⟩
  exact ⟨s, replies, s', reply, hrun, hperform, hcounts, hobject, hfunction, hbox,
    hover _ s' reply "v" _ hperform rfl hslot, hbox', hobject'⟩

end Session
end Interchange.Script
