/-
# The store of shared cells

Objects, functions and the boxes of persistent handles are shared.  Each lives in a cell that counts
the references to it.  A cell is freed when its last reference goes, and what it held is released
with it; cells that refer to each other in a cycle stay, and go on holding what they hold.

The program has no store.  It has shared pointers with a count each, and the mutable cells behind
them; this module is the memory that these live in, so that the counts that `ref_count` reports can
be computed and reasoned about.  `retain` is a clone, `release` a drop with all that it causes.

References from outside the store are its *roots*.  The store is *balanced* over its roots when each
cell's count is the number of references to it among the roots and the contents of cells.

* `Balanced.alloc`, `Balanced.retain`, `Balanced.update`: how each operation moves references
  between the roots and the cells, and keeps the balance;
* `Balanced.release`: releasing references takes exactly these from the roots, however many cells
  are freed on the way.
-/
import Interchange.Script.Datum
import Interchange.Table

namespace Interchange.Script

/-! ## 1. Cells -/

/-- What a cell holds. -/
inductive Content where
  /-- An object; `native` is the registered object that it wraps. -/
  | object (native : Option ObjectId) (properties : Table String Datum)
  | function (name : String) (body : Body)
  /-- What the copies of a persistent handle share. -/
  | box (held : Datum)
  deriving DecidableEq

/-- The references that a cell's content holds. -/
def Content.refs : Content → List Ref
  | .object _ properties => properties.listAll Datum.refs
  | .function _ _ => []
  | .box held => held.refs

/-- A shared cell and the number of references to it. -/
structure Cell where
  count : Nat
  content : Content
  deriving DecidableEq

/-- The cells by their references; a cell that was freed is gone for good, and its place is not used
again, so that a reference never changes its meaning. -/
structure Store where
  cells : List (Option Cell)
  deriving DecidableEq

namespace Store

instance : Inhabited Store := ⟨⟨[]⟩⟩

/-- The references that a cell holds, if it is there. -/
def cellRefs : Option Cell → List Ref
  | none => []
  | some c => c.content.refs

/-- The cell under a reference, unless it was freed. -/
def cell? (s : Store) (r : Ref) : Option Cell := s.cells[r]?.join

def content? (s : Store) (r : Ref) : Option Content := (s.cell? r).map Cell.content

/-- The number of references to a cell; none once it is freed. -/
def count (s : Store) (r : Ref) : Nat := ((s.cell? r).map Cell.count).getD 0

/-- All references that cells hold. -/
def held (s : Store) : List Ref := s.cells.flatMap cellRefs

/-! ## 2. Operations -/

/-- The store with another cell in place of the one under a reference. -/
def put (s : Store) (r : Ref) (c : Option Cell) : Store := ⟨s.cells.set r c⟩

/-- A new cell with one reference to it, which the caller holds.  Its content takes over references
that were counted before. -/
def alloc (s : Store) (content : Content) : Store × Ref :=
  (⟨s.cells ++ [some ⟨1, content⟩]⟩, s.cells.length)

def retainOne (s : Store) (r : Ref) : Store :=
  match s.cell? r with
  | none => s
  | some c => s.put r (some ⟨c.count + 1, c.content⟩)

def retain (s : Store) (refs : List Ref) : Store := refs.foldl retainOne s

/-- Another content for a cell.  Which references that takes or lets go is the caller's to count. -/
def update (s : Store) (r : Ref) (content : Content) : Store :=
  match s.cell? r with
  | none => s
  | some c => s.put r (some ⟨c.count, content⟩)

theorem perm_flatMap_set {α β : Type} (f : α → List β) {l : List α} {i : Nat} {x : α}
    (h : l[i]? = some x) (y : α) : (f x ++ (l.set i y).flatMap f).Perm (f y ++ l.flatMap f) := by
  induction l generalizing i with
  | nil => simp at h
  | cons z rest ih =>
    cases i with
    | zero =>
      obtain rfl : z = x := by simpa using h
      exact List.perm_append_comm_assoc ..
    | succ i =>
      have hrest := ih (by simpa using h)
      exact (List.perm_append_comm_assoc ..).trans
        ((hrest.append_left (f z)).trans (List.perm_append_comm_assoc ..))

theorem getElem?_of_cell? {s : Store} {r : Ref} {c : Cell} (h : s.cell? r = some c) :
    s.cells[r]? = some (some c) := by
  simpa [cell?, Option.join_eq_some_iff] using h

theorem held_put {s : Store} {r : Ref} {c : Cell} (h : s.cell? r = some c) (d : Option Cell) :
    (c.content.refs ++ (s.put r d).held).Perm (cellRefs d ++ s.held) :=
  perm_flatMap_set cellRefs (getElem?_of_cell? h) d

/-- Releases references one after the other; a cell whose last reference goes is freed, and what it
held is released in turn, before the rest.  Each step takes a reference off the list, and those that
it puts there it takes out of a cell, so the references held and listed together get fewer. -/
def release (s : Store) (refs : List Ref) : Store :=
  match refs with
  | [] => s
  | r :: rest =>
    match _h : s.cell? r with
    | none => release s rest
    | some c =>
      if c.count ≤ 1 then release (s.put r none) (c.content.refs ++ rest)
      else release (s.put r (some ⟨c.count - 1, c.content⟩)) rest
termination_by s.held.length + refs.length
decreasing_by
  · simp
  · have := (held_put _h none).length_eq
    simp only [cellRefs, List.length_append, List.length_nil, List.length_cons] at *
    omega
  · have := (held_put _h (some ⟨c.count - 1, c.content⟩)).length_eq
    simp only [cellRefs, List.length_append, List.length_cons] at *
    omega

/-! ## 3. Balance -/

/-- Each cell's count is the number of references to it among the roots and in cells. -/
def Balanced (s : Store) (roots : List Ref) : Prop := ∀ r, s.count r = (roots ++ s.held).count r

theorem cell?_put {s : Store} {r : Ref} {c : Cell} (h : s.cell? r = some c) (d : Option Cell)
    (q : Ref) : (s.put r d).cell? q = if q = r then d else s.cell? q := by
  have hr : r < s.cells.length := (List.getElem?_eq_some_iff.1 (getElem?_of_cell? h)).1
  by_cases hq : q = r
  · subst hq
    simp [cell?, put, hr]
  · simp [cell?, put, hq, List.getElem?_set_ne (fun hr => hq hr.symm)]

theorem count_put {s : Store} {r : Ref} {c : Cell} (h : s.cell? r = some c) (d : Option Cell)
    (q : Ref) : (s.put r d).count q = if q = r then (d.map Cell.count).getD 0 else s.count q := by
  unfold count
  rw [cell?_put h]
  split <;> rfl

theorem count_of_cell? {s : Store} {r : Ref} {c : Cell} (h : s.cell? r = some c) :
    s.count r = c.count := by
  rw [count, h]
  rfl

theorem balanced_nil : Balanced default [] := by
  intro r
  simp [count, cell?, held, default]

namespace Balanced

variable {s : Store} {roots : List Ref}

theorem perm {roots' : List Ref} (h : s.Balanced roots) (hp : roots.Perm roots') :
    s.Balanced roots' := by
  intro r
  rw [h r, List.count_append, List.count_append, hp.count_eq]

/-- A cell that something refers to is there. -/
theorem cell?_of_mem (h : s.Balanced roots) {r : Ref} (hr : r ∈ roots ++ s.held) :
    ∃ c, s.cell? r = some c := by
  have hc := List.count_pos_iff.2 hr
  rw [← h r] at hc
  cases hcell : s.cell? r with
  | none => simp [count, hcell] at hc
  | some c => exact ⟨c, rfl⟩

/-- A new cell takes over the references that its content holds. -/
theorem alloc {content : Content} (h : s.Balanced (content.refs ++ roots)) :
    (s.alloc content).1.Balanced ((s.alloc content).2 :: roots) := by
  intro r
  have hr := h r
  simp only [Store.alloc, count, cell?, held, List.flatMap_append, List.flatMap_cons,
    List.flatMap_nil, List.append_nil, cellRefs, List.count_append, List.count_cons] at *
  rcases Nat.lt_trichotomy r s.cells.length with hlt | heq | hgt
  · have hne : (s.cells.length == r) = false := by simp; omega
    rw [List.getElem?_append_left hlt, hne, hr]
    simp
    omega
  · subst heq
    simp at hr ⊢
    omega
  · have hne : (s.cells.length == r) = false := by simp; omega
    have hout : s.cells.length ≤ r := by omega
    have hout' : (s.cells ++ [some (Cell.mk 1 content)]).length ≤ r := by simp; omega
    rw [List.getElem?_eq_none hout] at hr
    rw [List.getElem?_eq_none hout', hne]
    simp at hr ⊢
    omega

theorem retainOne {r : Ref} (h : s.Balanced roots) (hr : r ∈ roots ++ s.held) :
    (s.retainOne r).Balanced (r :: roots) := by
  obtain ⟨c, hc⟩ := h.cell?_of_mem hr
  intro q
  have hq := h q
  have hheld := (held_put hc (some ⟨c.count + 1, c.content⟩)).count_eq q
  simp only [Store.retainOne, hc, count_put hc]
  simp only [List.count_append, List.count_cons, cellRefs] at *
  have hcount := count_of_cell? hc
  by_cases hqr : q = r
  · subst hqr
    simp
    omega
  · have hne : (r == q) = false := by simpa using fun hrq => hqr hrq.symm
    simp [hqr, hne]
    omega

theorem held_retainOne (s : Store) (r q : Ref) :
    (s.retainOne r).held.count q = s.held.count q := by
  unfold Store.retainOne
  split
  · rfl
  · next c hc =>
    have := (held_put hc (some ⟨c.count + 1, c.content⟩)).count_eq q
    simp only [List.count_append, cellRefs] at this
    omega

/-- More roots, each referring to a cell that something already refers to. -/
theorem retain {refs : List Ref} (h : s.Balanced roots) (hr : ∀ r ∈ refs, r ∈ roots ++ s.held) :
    (s.retain refs).Balanced (refs ++ roots) := by
  induction refs generalizing s roots with
  | nil => exact h
  | cons r rest ih =>
    have hone := h.retainOne (hr r List.mem_cons_self)
    have hrest : ∀ q ∈ rest, q ∈ (r :: roots) ++ (s.retainOne r).held := by
      intro q hq
      have hmem := List.count_pos_iff.2 (hr q (List.mem_cons_of_mem r hq))
      apply List.count_pos_iff.1
      rw [List.count_append, held_retainOne, List.count_cons]
      rw [List.count_append] at hmem
      omega
    exact (ih hone hrest).perm List.perm_middle

/-- Another content for a cell: the references held by the old one move to the roots, those held by
the new one move from there. -/
theorem update {r : Ref} {content : Content} {roots' : List Ref} {c : Cell}
    (h : s.Balanced roots) (hc : s.cell? r = some c)
    (hp : (content.refs ++ roots').Perm (c.content.refs ++ roots)) :
    (s.update r content).Balanced roots' := by
  intro q
  have hq := h q
  have hheld := (held_put hc (some ⟨c.count, content⟩)).count_eq q
  have hperm := hp.count_eq q
  simp only [Store.update, hc, count_put hc]
  simp only [List.count_append, cellRefs] at *
  have hcount := count_of_cell? hc
  by_cases hqr : q = r
  · subst hqr
    simp
    omega
  · simp [hqr]
    omega

/-- **Releasing references takes exactly these from the roots.** -/
theorem release {refs : List Ref} (h : s.Balanced (refs ++ roots)) :
    (s.release refs).Balanced roots := by
  fun_induction Store.release s refs with
  | case1 s => exact h
  | case2 s r rest hc ih =>
    obtain ⟨c, hc'⟩ := h.cell?_of_mem (r := r) (by simp)
    rw [hc] at hc'
    contradiction
  | case3 s r rest c hc hlast ih =>
    apply ih
    intro q
    have hq := h q
    have hr := h r
    have hheld := (held_put hc none).count_eq q
    have hcount := count_of_cell? hc
    rw [count_put hc]
    simp only [List.count_append, List.cons_append, List.count_cons, cellRefs,
      List.count_nil] at *
    by_cases hqr : q = r
    · subst hqr
      simp at *
      omega
    · have hne : (r == q) = false := by simpa using fun hrq => hqr hrq.symm
      simp [hqr, hne] at *
      omega
  | case4 s r rest c hc hmore ih =>
    apply ih
    intro q
    have hq := h q
    have hheld := (held_put hc (some ⟨c.count - 1, c.content⟩)).count_eq q
    have hcount := count_of_cell? hc
    rw [count_put hc]
    simp only [List.count_append, List.cons_append, List.count_cons, cellRefs] at *
    by_cases hqr : q = r
    · subst hqr
      simp at *
      omega
    · have hne : (r == q) = false := by simpa using fun hrq => hqr hrq.symm
      simp [hqr, hne] at *
      omega

end Balanced

/-- Freeing an object frees what only it refers to; an object that refers to itself stays. -/
example :
    let object (r : Ref) : Content := .object none (Table.empty.insert "next" (.object r))
    let chain : Store := ⟨[some ⟨1, object 1⟩, some ⟨1, .function "f" .noop⟩]⟩
    let loop : Store := ⟨[some ⟨2, object 0⟩]⟩
    chain.release [0] = ⟨[none, none]⟩ ∧ loop.release [0] = ⟨[some ⟨1, object 0⟩]⟩ := by
  decide +kernel

end Store
end Interchange.Script
