/-
# What operations on cells leave alone

Operations on cells count references, free cells and take new ones, but seldom change what a cell
is.  Cells may be freed, but a freed cell is never taken again.  In particular every operation,
short of registering and releasing a native object, leaves it alone which cells wrap one: a cell
that stays wraps what it wrapped, and a new cell wraps nothing.

* `Keeps.put`: replacing a cell by one that looks the same keeps what can be seen of the cells;
* `Keeps.alloc`, `Keeps.retain`, `Keeps.update`, `Keeps.release`: so do all the others;
* `Frame.native?_eq_some`: a frame lets no cell come to wrap an object.
-/
import Interchange.Script.Store

namespace Interchange.Script

/-- The registered object that a cell's content wraps. -/
def Content.native? : Content → Option ObjectId
  | .object native _ => native
  | .function _ _ | .box _ => none

namespace Store

/-- The registered object that the cell under a reference wraps. -/
def native? (s : Store) (r : Ref) : Option ObjectId := (s.content? r).bind Content.native?

theorem native?_of_cell? {s : Store} {r : Ref} {c : Cell} (h : s.cell? r = some c) :
    s.native? r = c.content.native? := by
  rw [native?, content?, h]
  rfl

theorem lt_length_of_cell? {s : Store} {r : Ref} {c : Cell} (h : s.cell? r = some c) :
    r < s.cells.length := (List.getElem?_eq_some_iff.mp (getElem?_of_cell? h)).1

theorem length_alloc (s : Store) (content : Content) :
    (s.alloc content).1.cells.length = s.cells.length + 1 := by simp [alloc]

theorem cell?_alloc (s : Store) (content : Content) (r : Ref) :
    (s.alloc content).1.cell? r = if r = s.cells.length then some ⟨1, content⟩ else s.cell? r := by
  unfold cell? alloc
  rcases Nat.lt_trichotomy r s.cells.length with hlt | rfl | hgt
  · rw [if_neg (Nat.ne_of_lt hlt), List.getElem?_append_left hlt]
  · simp
  · have hout : (s.cells ++ [some (Cell.mk 1 content)]).length ≤ r := by
      rw [List.length_append]
      exact hgt
    rw [if_neg (Nat.ne_of_gt hgt), List.getElem?_eq_none hout,
      List.getElem?_eq_none (Nat.le_of_lt hgt)]

theorem content?_of_cell? {s : Store} {r : Ref} {c : Cell} (h : s.cell? r = some c) :
    s.content? r = some c.content := by
  rw [content?, h]
  rfl

theorem count_of_freed {s : Store} {r : Ref} (h : s.cell? r = none) : s.count r = 0 := by
  rw [count, h]
  rfl

theorem content?_retain (s : Store) (refs : List Ref) (q : Ref) :
    (s.retain refs).content? q = s.content? q := by
  induction refs generalizing s with
  | nil => rfl
  | cons r rest ih =>
    show ((s.retainOne r).retain rest).content? q = s.content? q
    rw [ih]
    unfold retainOne
    split
    · rfl
    · next c hc =>
      unfold content?
      rw [cell?_put hc]
      split
      · next hq =>
        rw [hq, hc]
        rfl
      · rfl

/-! ## 1. What cells keep -/

/-- The cells of `s` that are still there in `s'` look to `f` as they did, and what `f` sees of the
new ones is `New`.  With `f` the identity this is all of a cell but its count; with
`Content.native?` it is only which object the cell wraps, which a new property does not change. -/
structure Keeps {α : Type} (f : Content → α) (New : α → Prop) (s s' : Store) : Prop where
  length_le : s.cells.length ≤ s'.cells.length
  kept : ∀ r c', r < s.cells.length → s'.cell? r = some c' →
    ∃ c, s.cell? r = some c ∧ f c'.content = f c.content
  fresh : ∀ r c', s.cells.length ≤ r → s'.cell? r = some c' → New (f c'.content)

namespace Keeps

variable {α : Type} {f : Content → α} {New : α → Prop} {s s' s'' : Store}

theorem refl (s : Store) : s.Keeps f New s where
  length_le := Nat.le_refl _
  kept _ c _ h := ⟨c, h, rfl⟩
  fresh _ _ hr h := absurd (lt_length_of_cell? h) (Nat.not_lt.mpr hr)

theorem trans (h : s.Keeps f New s') (h' : s'.Keeps f New s'') : s.Keeps f New s'' where
  length_le := Nat.le_trans h.length_le h'.length_le
  kept r c'' hr hc'' := by
    obtain ⟨c', hc', hf'⟩ := h'.kept r c'' (Nat.lt_of_lt_of_le hr h.length_le) hc''
    obtain ⟨c, hc, hf⟩ := h.kept r c' hr hc'
    exact ⟨c, hc, hf'.trans hf⟩
  fresh r c'' hr hc'' := by
    rcases Nat.lt_or_ge r s'.cells.length with hlt | hge
    · obtain ⟨c', hc', hf'⟩ := h'.kept r c'' hlt hc''
      rw [hf']
      exact h.fresh r c' hr hc'
    · exact h'.fresh r c'' hge hc''

/-- **Replacing a cell by one that looks the same, or freeing it.**  All operations but `alloc` come
down to this, also the release of a cell that frees others on the way. -/
theorem put {r : Ref} {c : Cell} (h : s.cell? r = some c) {d : Option Cell}
    (hd : ∀ c' ∈ d, f c'.content = f c.content) : s.Keeps f New (s.put r d) where
  length_le := Nat.le_of_eq (List.length_set ..).symm
  kept q c' _ hc' := by
    rw [cell?_put h] at hc'
    split at hc'
    · next hq => exact ⟨c, hq ▸ h, hd c' hc'⟩
    · exact ⟨c', hc', rfl⟩
  fresh q c' hq hc' := by
    have hlt := lt_length_of_cell? hc'
    rw [Store.put, List.length_set] at hlt
    exact absurd hlt (Nat.not_lt.mpr hq)

theorem alloc {content : Content} (h : New (f content)) : s.Keeps f New (s.alloc content).1 where
  length_le := by
    rw [length_alloc]
    exact Nat.le_succ _
  kept r c' hr hc' := by
    rw [cell?_alloc, if_neg (Nat.ne_of_lt hr)] at hc'
    exact ⟨c', hc', rfl⟩
  fresh r c' hr hc' := by
    rw [cell?_alloc] at hc'
    split at hc'
    · cases hc'
      exact h
    · exact absurd (lt_length_of_cell? hc') (Nat.not_lt.mpr hr)

theorem retainOne (s : Store) (r : Ref) : s.Keeps f New (s.retainOne r) := by
  unfold Store.retainOne
  split
  · exact .refl s
  · next c hc => exact .put hc (by simp)

theorem retain (s : Store) (refs : List Ref) : s.Keeps f New (s.retain refs) := by
  induction refs generalizing s with
  | nil => exact .refl s
  | cons r rest ih => exact (retainOne s r).trans (ih _)

/-- Another content for a cell, that looks the same. -/
theorem update {r : Ref} {content : Content}
    (h : ∀ c, s.cell? r = some c → f content = f c.content) :
    s.Keeps f New (s.update r content) := by
  unfold Store.update
  split
  · exact .refl s
  · next c hc => exact .put hc (by simpa using h c hc)

theorem release (s : Store) (refs : List Ref) : s.Keeps f New (s.release refs) := by
  fun_induction Store.release s refs with
  | case1 s => exact .refl s
  | case2 s r rest hc ih => exact ih
  | case3 s r rest c hc hlast ih => exact (put hc (by simp)).trans ih
  | case4 s r rest c hc hmore ih => exact (put hc (by simp)).trans ih

end Keeps

/-! ## 2. Frames -/

/-- The cells of `s` that are still there in `s'` wrap what they wrapped, and the new ones wrap
nothing. -/
structure Frame (s s' : Store) : Prop where
  length_le : s.cells.length ≤ s'.cells.length
  kept : ∀ r c', r < s.cells.length → s'.cell? r = some c' →
    ∃ c, s.cell? r = some c ∧ c'.content.native? = c.content.native?
  fresh : ∀ r c', s.cells.length ≤ r → s'.cell? r = some c' → c'.content.native? = none

namespace Frame

variable {s s' s'' : Store}

theorem of_keeps (h : s.Keeps Content.native? (· = none) s') : s.Frame s' :=
  ⟨h.length_le, h.kept, h.fresh⟩

theorem keeps (h : s.Frame s') : s.Keeps Content.native? (· = none) s' :=
  ⟨h.length_le, h.kept, h.fresh⟩

theorem trans (h : s.Frame s') (h' : s'.Frame s'') : s.Frame s'' :=
  of_keeps (h.keeps.trans h'.keeps)

/-- **No cell comes to wrap an object.** -/
theorem native?_eq_some (h : s.Frame s') {r : Ref} {id : ObjectId}
    (hid : s'.native? r = some id) : s.native? r = some id := by
  cases hc' : s'.cell? r with
  | none =>
    rw [native?, content?, hc'] at hid
    exact absurd hid (by simp)
  | some c' =>
    rw [native?_of_cell? hc'] at hid
    rcases Nat.lt_or_ge r s.cells.length with hlt | hge
    · obtain ⟨c, hc, hnative⟩ := h.kept r c' hlt hc'
      rw [native?_of_cell? hc, ← hnative, hid]
    · rw [h.fresh r c' hge hc'] at hid
      exact absurd hid (by simp)

/-- A new cell that wraps nothing. -/
theorem alloc {content : Content} (h : content.native? = none) : s.Frame (s.alloc content).1 :=
  of_keeps (.alloc h)

theorem retain (s : Store) (refs : List Ref) : s.Frame (s.retain refs) :=
  of_keeps (.retain s refs)

/-- Another content for a cell, that wraps the same. -/
theorem update {r : Ref} {content : Content}
    (h : ∀ c, s.cell? r = some c → content.native? = c.content.native?) :
    s.Frame (s.update r content) :=
  of_keeps (.update h)

theorem release (s : Store) (refs : List Ref) : s.Frame (s.release refs) :=
  of_keeps (.release s refs)

end Frame
end Store
end Interchange.Script
