/-
# What references expect of the cells they refer to

A reference to an object expects an object, one to a function a function, and the copies of a
persistent handle expect a box that holds what they hold.  A *link* is a reference with the shape of
the cell that it expects.  A store is *typed* over its roots when every link, among the roots and in
the cells, finds what it expects as long as the cell is there.

Counting says that a cell is there while something refers to it (`Store.Balanced`); typing says what
it is.

* `Typed.alloc`, `Typed.update`, `Typed.of_keeps`: operations on cells keep the typing;
* `Knows.exists_cell`: in a balanced store every link finds the cell that it expects.
-/
import Interchange.Proofs.Script.Frame
import Interchange.Script.Heap

namespace Interchange

namespace Script

/-! ## 1. Links -/

/-- What a reference can expect of a cell. -/
inductive Shape where
  | object
  | function
  /-- A box that holds this datum. -/
  | box (held : Datum)
  deriving DecidableEq

/-- The shape of a cell's content. -/
def Content.shape : Content → Shape
  | .object _ _ => .object
  | .function _ _ => .function
  | .box held => .box held

/-- A reference with the shape of the cell that it expects. -/
structure Link where
  ref : Ref
  shape : Shape
  deriving DecidableEq

/-- The links that a datum holds. -/
def Datum.links : Datum → List Link
  | .atom _ => []
  | .object r => [⟨r, .object⟩]
  | .function r => [⟨r, .function⟩]

/-- The links that a cell's content holds. -/
def Content.links : Content → List Link
  | .object _ properties => properties.listAll Datum.links
  | .function _ _ => []
  | .box held => held.links

end Script

open Script

/-- What a persistent handle expects: a box that holds its datum. -/
def Persistent.links (p : Persistent Datum) : List Link := [⟨p.box, .box p.held⟩]

/-- The links that a value holds. -/
def Value.links : Value Datum → List Link
  | .transient d => d.links
  | .persistent p => p.links
  | _ => []

theorem Table.map_listAll {κ α β γ : Type} {f : α → List β} {g : α → List γ} {m : γ → β}
    (h : ∀ a, (g a).map m = f a) (t : Table κ α) : (t.listAll g).map m = t.listAll f := by
  unfold Table.listAll
  rw [List.map_flatMap]
  exact congrArg t.values.flatMap (funext h)

theorem Script.Datum.map_links (d : Datum) : d.links.map Link.ref = d.refs := by
  cases d <;> rfl

theorem Script.Content.map_links (content : Content) :
    content.links.map Link.ref = content.refs := by
  cases content with
  | object native properties => exact properties.map_listAll Datum.map_links
  | function => rfl
  | box held => exact held.map_links

theorem Persistent.map_links (p : Persistent Datum) : p.links.map Link.ref = p.refs := rfl

theorem Value.map_links (v : Value Datum) : v.links.map Link.ref = v.refs := by
  cases v with
  | transient d => exact d.map_links
  | persistent | undefined | null | boolean | integer | long | number | date | string | object
  | type | marker => rfl

namespace Script
namespace Store

/-! ## 2. Typing -/

/-- The cell that a link expects was taken, and is as expected unless it was freed. -/
def Fits (s : Store) (l : Link) : Prop :=
  l.ref < s.cells.length ∧ ∀ c, s.cell? l.ref = some c → c.content.shape = l.shape

/-- The shapes of cells do not change. -/
abbrev Extends (s s' : Store) : Prop := s.Keeps Content.shape (fun _ => True) s'

theorem Fits.mono {s s' : Store} {l : Link} (h : s.Fits l) (he : s.Extends s') : s'.Fits l := by
  refine ⟨Nat.lt_of_lt_of_le h.1 he.length_le, fun c' hc' => ?_⟩
  obtain ⟨c, hc, hshape⟩ := he.kept l.ref c' h.1 hc'
  rw [hshape, h.2 c hc]

/-- Every link among the roots and in the cells fits.  Nothing is said of cells that were freed: a
link to one fits whatever it expects, and that there is none is a matter of the counts. -/
structure Typed (s : Store) (roots : List Link) : Prop where
  roots : ∀ l ∈ roots, s.Fits l
  cells : ∀ r c, s.cell? r = some c → ∀ l ∈ c.content.links, s.Fits l

theorem typed_default : Typed default [] where
  roots _ h := absurd h List.not_mem_nil
  cells r c h := absurd h (by simp [cell?, default])

namespace Typed

variable {s s' : Store} {roots : List Link}

theorem mono {roots' : List Link} (h : s.Typed roots) (hsub : ∀ l ∈ roots', l ∈ roots) :
    s.Typed roots' :=
  ⟨fun l hl => h.roots l (hsub l hl), h.cells⟩

/-- **Counting references and freeing cells keeps the typing**, since neither changes what a cell
holds. -/
theorem of_keeps (h : s.Typed roots) (hk : s.Keeps id (fun _ => False) s') : s'.Typed roots := by
  have he : s.Extends s' :=
    { length_le := hk.length_le
      kept := fun r c' hr hc' => by
        obtain ⟨c, hc, hcontent⟩ := hk.kept r c' hr hc'
        exact ⟨c, hc, congrArg Content.shape hcontent⟩
      fresh := fun _ _ _ _ => trivial }
  refine ⟨fun l hl => (h.roots l hl).mono he, fun r c' hc' l hl => ?_⟩
  rcases Nat.lt_or_ge r s.cells.length with hlt | hge
  · obtain ⟨c, hc, hcontent⟩ := hk.kept r c' hlt hc'
    have hcontent : c'.content = c.content := hcontent
    rw [hcontent] at hl
    exact (h.cells r c hc l hl).mono he
  · exact (hk.fresh r c' hge hc').elim

theorem retain (h : s.Typed roots) (refs : List Ref) : (s.retain refs).Typed roots :=
  h.of_keeps (.retain s refs)

theorem release (h : s.Typed roots) (refs : List Ref) : (s.release refs).Typed roots :=
  h.of_keeps (.release s refs)

/-- **A new cell, for content whose links fit.**  The links of the content leave the roots for the
cell, and the link to the cell takes their place. -/
theorem alloc {content : Content} (h : s.Typed (content.links ++ roots)) :
    (s.alloc content).1.Typed (⟨(s.alloc content).2, content.shape⟩ :: roots) := by
  have he : s.Extends (s.alloc content).1 := .alloc trivial
  have hcontent : ∀ l ∈ content.links, (s.alloc content).1.Fits l := fun l hl =>
    (h.roots l (List.mem_append_left _ hl)).mono he
  refine ⟨fun l hl => ?_, fun r c hc l hl => ?_⟩
  · rcases List.mem_cons.mp hl with rfl | hl
    · refine ⟨by simp [Store.alloc], fun c hc => ?_⟩
      have hc : (s.alloc content).1.cell? s.cells.length = some c := hc
      rw [cell?_alloc, if_pos rfl] at hc
      cases hc
      rfl
    · exact (h.roots l (List.mem_append_right _ hl)).mono he
  · rw [cell?_alloc] at hc
    split at hc
    · cases hc
      exact hcontent l hl
    · exact (h.cells r c hc l hl).mono he

/-- **Another content of the same shape, whose links fit.**  Links to the cell expect a shape only,
so that they fit the new content as well. -/
theorem update {r : Ref} {c : Cell} {content : Content} (h : s.Typed roots)
    (hc : s.cell? r = some c) (hshape : content.shape = c.content.shape)
    (hlinks : ∀ l ∈ content.links, s.Fits l) : (s.update r content).Typed roots := by
  have hput : s.update r content = s.put r (some ⟨c.count, content⟩) := by
    rw [Store.update, hc]
  have he : s.Extends (s.update r content) := by
    refine .update fun c₁ hc₁ => ?_
    rw [hc] at hc₁
    cases hc₁
    exact hshape
  refine ⟨fun l hl => (h.roots l hl).mono he, fun q c' hc' l hl => ?_⟩
  rw [hput, cell?_put hc] at hc'
  split at hc'
  · cases hc'
    exact (hlinks l hl).mono he
  · exact (h.cells q c' hc' l hl).mono he

end Typed

/-! ## 3. Links that are known -/

/-- A link that is held, from outside the cells or inside one. -/
def Knows (s : Store) (roots : List Link) (l : Link) : Prop :=
  l ∈ roots ∨ ∃ r c, s.cell? r = some c ∧ l ∈ c.content.links

theorem mem_held {s : Store} {r q : Ref} {c : Cell} (hc : s.cell? r = some c)
    (hq : q ∈ c.content.refs) : q ∈ s.held :=
  List.mem_flatMap.mpr ⟨some c, List.mem_of_getElem? (getElem?_of_cell? hc), hq⟩

variable {s : Store} {roots : List Link} {l : Link}

theorem Knows.mem (h : s.Knows roots l) : l.ref ∈ roots.map Link.ref ++ s.held := by
  rcases h with h | ⟨r, c, hc, hl⟩
  · exact List.mem_append_left _ (List.mem_map_of_mem h)
  · refine List.mem_append_right _ (mem_held hc ?_)
    rw [← c.content.map_links]
    exact List.mem_map_of_mem hl

theorem Knows.fits (h : s.Knows roots l) (ht : s.Typed roots) : s.Fits l := by
  rcases h with h | ⟨r, c, hc, hl⟩
  · exact ht.roots l h
  · exact ht.cells r c hc l hl

/-- **In a balanced store every link finds the cell that it expects.**  What a link refers to is
counted, hence not freed, and a cell that is there has the shape that the typing says. -/
theorem Knows.exists_cell (h : s.Knows roots l) (ht : s.Typed roots)
    (hb : s.Balanced (roots.map Link.ref)) :
    ∃ c, s.cell? l.ref = some c ∧ c.content.shape = l.shape := by
  obtain ⟨c, hc⟩ := hb.cell?_of_mem h.mem
  exact ⟨c, hc, (h.fits ht).2 c hc⟩

/-! ## 4. Counts are positive -/

/-- Each cell that is there is counted at least once. -/
def Counted (s : Store) : Prop := ∀ r c, s.cell? r = some c → 0 < c.count

theorem counted_default : Counted default := by
  intro r c h
  simp [cell?, default] at h

namespace Counted

theorem put {r : Ref} {c : Cell} (h : s.Counted) (hc : s.cell? r = some c) {d : Option Cell}
    (hd : ∀ c' ∈ d, 0 < c'.count) : (s.put r d).Counted := by
  intro q c' hc'
  rw [cell?_put hc] at hc'
  split at hc'
  · exact hd c' hc'
  · exact h q c' hc'

theorem alloc (h : s.Counted) (content : Content) : (s.alloc content).1.Counted := by
  intro r c hc
  rw [cell?_alloc] at hc
  split at hc
  · cases hc
    exact Nat.one_pos
  · exact h r c hc

theorem retainOne (h : s.Counted) (r : Ref) : (s.retainOne r).Counted := by
  unfold Store.retainOne
  split
  · exact h
  · next c hc => exact h.put hc (by simp)

theorem retain (h : s.Counted) (refs : List Ref) : (s.retain refs).Counted := by
  induction refs generalizing s with
  | nil => exact h
  | cons r rest ih => exact ih (h.retainOne r)

theorem update (h : s.Counted) (r : Ref) (content : Content) : (s.update r content).Counted := by
  unfold Store.update
  split
  · exact h
  · next c hc => exact h.put hc (by simpa using h r c hc)

theorem release (h : s.Counted) (refs : List Ref) : (s.release refs).Counted := by
  fun_induction Store.release s refs with
  | case1 s => exact h
  | case2 s r rest hc ih => exact ih h
  | case3 s r rest c hc hlast ih => exact ih (h.put hc (by simp))
  | case4 s r rest c hc hmore ih => exact ih (h.put hc (by simp; omega))

end Counted
end Store
end Script
end Interchange
