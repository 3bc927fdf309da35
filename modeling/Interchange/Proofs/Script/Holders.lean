/-
# Who holds what

The reference count of an object or a function is explained by its *holders*: names of the script,
property slots of objects that were not freed, the table of wrappers, values that borrow it, and
persistent handles.  The copies of a persistent handle share a box, and it is the box that holds the
object.  So a persistent handle counts once, however many copies it has, and its box counts the
copies.

The balance of a session says that each cell is counted once for each reference to it, wherever
that reference is.  What is left is to sort references by what holds them: only copies refer to
boxes, and they refer to nothing else.

* `count_held`: the references that cells hold are in property slots and in boxes;
* `Sound.count_box`: the count of a box is the number of its copies;
* `Sound.count_eq_holders`: the count of an object or a function is the number of its holders.
-/
import Mathlib.Data.List.Dedup
import Interchange.Proofs.Script.Balance

namespace Interchange

open Script

/-! ## 1. Holders -/

/-- The copy of a persistent handle that a value is. -/
def Value.copies : Value Datum → List (Persistent Datum)
  | .persistent p => [p]
  | _ => []

/-- The datum that a value borrows. -/
def Value.borrowed : Value Datum → List Datum
  | .transient d => [d]
  | _ => []

theorem Value.refs_eq (v : Value Datum) :
    v.refs = v.borrowed.flatMap Datum.refs ++ v.copies.flatMap Persistent.refs := by
  cases v with
  | transient d => simp [refs, borrowed, copies]
  | persistent | undefined | null | boolean | integer | long | number | date | string | object
  | type | marker => rfl

namespace Script

/-- The data in the property slots of a cell's content. -/
def Content.slots : Content → List Datum
  | .object _ properties => properties.values
  | .function _ _ | .box _ => []

/-- Whether a cell's content is a box that holds a reference. -/
def Content.boxes (r : Ref) : Content → Bool
  | .box d => r ∈ d.refs
  | .object _ _ | .function _ _ => false

namespace Store

/-- The data in the property slots of a cell, if it is there. -/
def cellSlots : Option Cell → List Datum
  | none => []
  | some c => c.content.slots

/-- The data in property slots of objects that were not freed. -/
def slots (s : Store) : List Datum := s.cells.flatMap cellSlots

/-- Whether the cell under a reference is a box that holds another reference. -/
def boxes (s : Store) (r b : Ref) : Bool := (s.cell? b).any fun c => c.content.boxes r

end Store

namespace Session

/-- The copies of persistent handles that are left, inside values and on their own. -/
def copies (s : Session) : List (Persistent Datum) :=
  s.values.listAll Value.copies ++ s.handles.values

/-- The distinct persistent handles to an object or a function of which a copy is left, by their
boxes. -/
def boxesOn (s : Session) (r : Ref) : List Ref :=
  ((s.copies.filter (r ∈ ·.held.refs)).map Persistent.box).dedup

/-- The number of holders of an object or a function. -/
def holders (s : Session) (r : Ref) : Nat :=
  s.data.values.countP (r ∈ ·.refs) + s.heap.store.slots.countP (r ∈ ·.refs) +
    (if r ∈ s.heap.wrappers.values then 1 else 0) +
    (s.values.listAll Value.borrowed).countP (r ∈ ·.refs) + (s.boxesOn r).length

end Session

/-! ## 2. References by what holds them -/

theorem Datum.count_refs (d : Datum) (q : Ref) :
    d.refs.count q = if q ∈ d.refs then 1 else 0 := by
  cases d with
  | atom => rfl
  | object r | function r =>
    simp only [refs, List.count_singleton, List.mem_singleton, beq_iff_eq, eq_comm (a := q)]

/-- Each datum refers at most once to a cell. -/
theorem count_flatMap_refs (l : List Datum) (q : Ref) :
    (l.flatMap Datum.refs).count q = l.countP (q ∈ ·.refs) := by
  induction l with
  | nil => rfl
  | cons d rest ih =>
    rw [List.flatMap_cons, List.count_append, d.count_refs, ih, List.countP_cons, Nat.add_comm]
    simp only [decide_eq_true_eq]

theorem count_flatMap_persistent (l : List (Persistent Datum)) (q : Ref) :
    (l.flatMap Persistent.refs).count q = l.countP (·.box = q) := by
  induction l with
  | nil => rfl
  | cons p rest ih =>
    rw [List.flatMap_cons, List.count_append, ih, List.countP_cons, Nat.add_comm, Persistent.refs,
      List.count_singleton]
    simp only [beq_iff_eq, decide_eq_true_eq]

theorem count_flatMap_value (l : List (Value Datum)) (q : Ref) :
    (l.flatMap Value.refs).count q = (l.flatMap Value.borrowed).countP (q ∈ ·.refs) +
      (l.flatMap Value.copies).countP (·.box = q) := by
  induction l with
  | nil => rfl
  | cons v rest ih =>
    simp only [List.flatMap_cons, List.count_append, List.countP_append, ih, v.refs_eq,
      count_flatMap_refs, count_flatMap_persistent]
    omega

theorem Content.count_refs (content : Content) (q : Ref) : content.refs.count q =
    content.slots.countP (q ∈ ·.refs) + if content.boxes q then 1 else 0 := by
  cases content with
  | object native properties => exact count_flatMap_refs properties.values q
  | function => rfl
  | box d => simp [refs, slots, boxes, d.count_refs]

theorem countP_range {α : Type} (p : α → Bool) (l : List α) :
    (List.range l.length).countP (fun i => l[i]?.any p) = l.countP p := by
  induction l with
  | nil => rfl
  | cons a rest ih =>
    rw [List.length_cons, List.range_succ_eq_map, List.countP_cons, List.countP_map,
      List.countP_cons, ← ih]
    rfl

namespace Store

theorem count_flatMap_cells (cells : List (Option Cell)) (q : Ref) :
    (cells.flatMap cellRefs).count q = (cells.flatMap cellSlots).countP (q ∈ ·.refs) +
      cells.countP fun cell => cell.any fun c => c.content.boxes q := by
  induction cells with
  | nil => rfl
  | cons cell rest ih =>
    simp only [List.flatMap_cons, List.count_append, List.countP_append, List.countP_cons, ih]
    cases cell with
    | none => simp [cellRefs, cellSlots]
    | some c =>
      simp only [cellRefs, cellSlots, c.content.count_refs, Option.any_some]
      omega

/-- **The references that cells hold are in property slots and in boxes.**  Functions hold none, and
a box is a cell of its own, so that the boxes are counted by their places and the slots by the data
in them. -/
theorem count_held (s : Store) (q : Ref) : s.held.count q =
    s.slots.countP (q ∈ ·.refs) + (List.range s.cells.length).countP (s.boxes q) := by
  have hboxes : (fun b => s.cells[b]?.any fun cell => cell.any fun c => c.content.boxes q) =
      s.boxes q := by
    funext b
    unfold boxes cell?
    cases s.cells[b]? <;> rfl
  rw [held, count_flatMap_cells, slots, ← hboxes,
    countP_range (fun cell => cell.any fun c => c.content.boxes q) s.cells]

end Store

/-! ## 3. What is a box and what is not -/

theorem Store.boxes_iff {s : Store} {r b : Ref} :
    s.boxes r b = true ↔ ∃ d, s.content? b = some (.box d) ∧ r ∈ d.refs := by
  unfold boxes content?
  cases s.cell? b with
  | none => simp
  | some c =>
    obtain ⟨count, content⟩ := c
    cases content <;> simp [Content.boxes]

/-- What refers to an object or a function does not refer to a box. -/
theorem Store.not_mem_refs_of_box {s : Store} {d e : Datum} {b : Ref}
    (hfit : ∀ l ∈ d.links, s.Fits l) (hb : s.content? b = some (.box e)) : b ∉ d.refs := by
  obtain ⟨c, hc, hbox⟩ := Option.map_eq_some_iff.mp hb
  intro hmem
  rw [← d.map_links] at hmem
  obtain ⟨l, hl, rfl⟩ := List.mem_map.mp hmem
  have hshape := (hfit l hl).2 c hc
  rw [hbox] at hshape
  cases d with
  | atom => exact absurd hl List.not_mem_nil
  | object r | function r =>
    obtain rfl := List.mem_singleton.mp hl
    contradiction

namespace Session

variable {s : Session}

theorem mem_links_copies {p : Persistent Datum} (h : p ∈ s.copies) {l : Link} (hl : l ∈ p.links) :
    l ∈ s.links := by
  rcases List.mem_append.mp h with h | h
  · obtain ⟨v, hv, hp⟩ := Table.mem_listAll_iff.mp h
    refine List.mem_append_left _ (List.mem_append_right _ (Table.mem_listAll_iff.mpr ⟨v, hv, ?_⟩))
    cases v with
    | persistent q =>
      obtain rfl := List.mem_singleton.mp hp
      exact hl
    | undefined | null | boolean | integer | long | number | date | string | object | transient
    | type | marker => exact absurd hp List.not_mem_nil
  · exact List.mem_append_right _ (Table.mem_listAll_iff.mpr ⟨p, h, hl⟩)

/-- The box of a copy holds what the copy holds. -/
theorem Sound.content?_box (h : s.Sound []) {p : Persistent Datum} (hp : p ∈ s.copies) :
    s.heap.store.content? p.box = some (.box p.held) := by
  obtain ⟨c, hc, hcontent⟩ := h.exists_box fun l hl => mem_links_copies hp hl
  rw [Store.content?_of_cell? hc, hcontent]

theorem Sound.fits_data (h : s.Sound []) {d : Datum} (hd : d ∈ s.data.values) {l : Link}
    (hl : l ∈ d.links) : s.heap.store.Fits l := by
  have hall : l ∈ s.data.listAll Datum.links := Table.mem_listAll_iff.mpr ⟨d, hd, hl⟩
  have hlink : l ∈ s.links := List.mem_append_left _ (List.mem_append_left _
    (List.mem_append_right _ hall))
  exact h.typed.roots l hlink

theorem Sound.fits_borrowed (h : s.Sound []) {d : Datum} (hd : d ∈ s.values.listAll Value.borrowed)
    {l : Link} (hl : l ∈ d.links) : s.heap.store.Fits l := by
  obtain ⟨v, hv, hd⟩ := Table.mem_listAll_iff.mp hd
  have hall : l ∈ s.values.listAll Value.links := by
    refine Table.mem_listAll_iff.mpr ⟨v, hv, ?_⟩
    cases v with
    | transient e =>
      obtain rfl := List.mem_singleton.mp hd
      exact hl
    | undefined | null | boolean | integer | long | number | date | string | object | persistent
    | type | marker => exact absurd hd List.not_mem_nil
  have hlink : l ∈ s.links := List.mem_append_left _ (List.mem_append_right _ hall)
  exact h.typed.roots l hlink

theorem Sound.fits_slots (h : s.Sound []) {d : Datum} (hd : d ∈ s.heap.store.slots) {l : Link}
    (hl : l ∈ d.links) : s.heap.store.Fits l := by
  obtain ⟨cell, hcell, hd⟩ := List.mem_flatMap.mp hd
  obtain ⟨r, hr⟩ := List.mem_iff_getElem?.mp hcell
  cases cell with
  | none => exact absurd hd List.not_mem_nil
  | some c =>
    have hc : s.heap.store.cell? r = some c := by rw [Store.cell?, hr, Option.join_some]
    refine h.typed.cells r c hc l ?_
    obtain ⟨count, content⟩ := c
    cases content with
    | object native properties => exact Table.mem_listAll_iff.mpr ⟨d, hd, hl⟩
    | function | box => exact absurd hd List.not_mem_nil

theorem Sound.fits_boxes (h : s.Sound []) {d : Datum} {b : Ref}
    (hd : s.heap.store.content? b = some (.box d)) {l : Link} (hl : l ∈ d.links) :
    s.heap.store.Fits l := by
  obtain ⟨c, hc, hbox⟩ := Option.map_eq_some_iff.mp hd
  refine h.typed.cells b c hc l ?_
  rw [hbox]
  exact hl

theorem Sound.count_eq (h : s.Sound []) (q : Ref) : s.heap.store.count q =
    s.heap.wrappers.values.count q + s.data.values.countP (q ∈ ·.refs) +
      (s.values.listAll Value.borrowed).countP (q ∈ ·.refs) + s.copies.countP (·.box = q) +
      s.heap.store.slots.countP (q ∈ ·.refs) +
      (List.range s.heap.store.cells.length).countP (s.heap.store.boxes q) := by
  rw [h.balanced q]
  simp only [List.map_nil, List.nil_append, roots, copies, List.count_append, List.countP_append,
    Store.count_held, Table.listAll, count_flatMap_refs, count_flatMap_value,
    count_flatMap_persistent]
  omega

/-- **The count of a box is the number of its copies.**  No datum refers to a box, whether it is
named, in a property slot, borrowed by a value or in the table: links to boxes come from persistent
handles alone, which is what the typing says.  A box that was freed has no copies either. -/
theorem Sound.count_box (h : s.Sound []) {b : Ref}
    (hb : ∀ content, s.heap.store.content? b = some content → ∃ d, content = .box d) :
    s.heap.store.count b = s.copies.countP (·.box = b) := by
  have hsum := h.count_eq b
  cases hcontent : s.heap.store.content? b with
  | none =>
    have hzero := Store.count_of_freed (Option.map_eq_none_iff.mp hcontent)
    omega
  | some content =>
    obtain ⟨e, rfl⟩ := hb content hcontent
    have hnone : ∀ l : List Datum, (∀ d ∈ l, ∀ k ∈ d.links, s.heap.store.Fits k) →
        l.countP (b ∈ ·.refs) = 0 := by
      intro l hl
      refine List.countP_eq_zero.mpr fun d hd => ?_
      simpa using Store.not_mem_refs_of_box (hl d hd) hcontent
    have hwrappers : s.heap.wrappers.values.count b = 0 := by
      refine List.count_eq_zero.mpr fun hmem => ?_
      have hlink : (⟨b, .object⟩ : Link) ∈ s.links := List.mem_append_left _
        (List.mem_append_left _ (List.mem_append_left _ (List.mem_map_of_mem hmem)))
      obtain ⟨c, hc, hbox⟩ := Option.map_eq_some_iff.mp hcontent
      have hshape := (h.typed.roots _ hlink).2 c hc
      rw [hbox] at hshape
      contradiction
    have hboxes : (List.range s.heap.store.cells.length).countP (s.heap.store.boxes b) = 0 := by
      refine List.countP_eq_zero.mpr fun b' _ hb' => ?_
      obtain ⟨d, hd, hmem⟩ := Store.boxes_iff.mp hb'
      exact Store.not_mem_refs_of_box (fun k hk => h.fits_boxes hd hk) hcontent hmem
    have hdata := hnone s.data.values fun d hd k hk => h.fits_data hd hk
    have hborrowed := hnone (s.values.listAll Value.borrowed) fun d hd k hk =>
      h.fits_borrowed hd hk
    have hslots := hnone s.heap.store.slots fun d hd k hk => h.fits_slots hd hk
    omega

/-- Persistent handles to an object or a function of which a copy is left are the boxes that hold
it.  A copy finds its box since links find what they expect; a box that is there has a copy since
what is there is counted. -/
theorem Sound.length_boxesOn (h : s.Sound []) (r : Ref) : (s.boxesOn r).length =
    (List.range s.heap.store.cells.length).countP (s.heap.store.boxes r) := by
  rw [List.countP_eq_length_filter]
  refine List.Perm.length_eq ((List.perm_ext_iff_of_nodup (List.nodup_dedup _)
    (List.nodup_range.filter _)).mpr fun b => ?_)
  rw [List.mem_dedup, List.mem_filter, Store.boxes_iff, List.mem_range]
  constructor
  · intro hb
    obtain ⟨p, hp, rfl⟩ := List.mem_map.mp hb
    obtain ⟨hp, hr⟩ := List.mem_filter.mp hp
    have hbox := h.content?_box hp
    obtain ⟨c, hc, -⟩ := Option.map_eq_some_iff.mp hbox
    exact ⟨Store.lt_length_of_cell? hc, p.held, hbox, of_decide_eq_true hr⟩
  · rintro ⟨-, d, hd, hr⟩
    -- a box that is there is counted, so that a copy of it is left
    obtain ⟨c, hc, -⟩ := Option.map_eq_some_iff.mp hd
    have hpos : 0 < s.heap.store.count b := by
      rw [Store.count_of_cell? hc]
      exact h.counted b c hc
    rw [h.count_box fun content hcontent => ⟨d, Option.some.inj (hcontent.symm.trans hd)⟩] at hpos
    obtain ⟨p, hp, hb⟩ := List.countP_pos_iff.mp hpos
    obtain rfl := of_decide_eq_true hb
    have hheld := h.content?_box hp
    rw [hd] at hheld
    cases hheld
    exact List.mem_map_of_mem (List.mem_filter.mpr ⟨hp, decide_eq_true hr⟩)

/-- **The count of an object or a function is the number of its holders.**  A persistent handle
counts once for all its copies, as the one box that they share; the table counts at most once, for
no two numbers have one wrapper. -/
theorem Sound.count_eq_holders (h : s.Sound []) (hw : s.heap.wrappers.values.Nodup) {r : Ref}
    (hr : ∀ d, s.heap.store.content? r ≠ some (.box d)) : s.heap.store.count r = s.holders r := by
  have hsum := h.count_eq r
  have hcopies : s.copies.countP (·.box = r) = 0 := by
    refine List.countP_eq_zero.mpr fun p hp hbox => ?_
    obtain rfl := of_decide_eq_true hbox
    exact hr p.held (h.content?_box hp)
  have hwrappers : s.heap.wrappers.values.count r =
      if r ∈ s.heap.wrappers.values then 1 else 0 := by
    split
    · next hmem => exact List.count_eq_one_of_mem hw hmem
    · next hmem => exact List.count_eq_zero.mpr hmem
  have hboxes := h.length_boxesOn r
  unfold holders
  omega

end Session
end Script
end Interchange
