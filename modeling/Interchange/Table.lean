/-
# Tables

A table keeps one entry per key.  Putting an entry replaces the one under its key, which
`perm_values_erase` accounts for: a table's values are the replaced one and those that stay.

The wrappers by their ids and the properties of an object are hash maps, and the names of a session
are tables too.  Nothing asks a map for its order, so the entries are a list, and all that is proved
of the values together is up to a permutation.

* `get?_insert`, `get?_erase`: what is found after a change;
* `perm_values_erase`: taking a key out takes out exactly its value;
* `perm_listAll_insert`: what the values list together, before and after one is replaced.
-/
namespace Interchange

/-- One entry per key.  The entries are in no particular order. -/
structure Table (κ α : Type) where
  entries : List (κ × α)
  nodup : (entries.map Prod.fst).Nodup
  deriving DecidableEq

namespace Table

variable {κ α : Type} [DecidableEq κ]

/-! ## 1. Operations -/

def empty : Table κ α := ⟨[], List.nodup_nil⟩

instance : Inhabited (Table κ α) := ⟨empty⟩

def get? (t : Table κ α) (k : κ) : Option α := t.entries.lookup k

def contains (t : Table κ α) (k : κ) : Bool := (t.get? k).isSome

def size (t : Table κ α) : Nat := t.entries.length

def values (t : Table κ α) : List α := t.entries.map Prod.snd

/-- What the value under a key lists, nothing if there is none.  With the references of a value for
`f` these are the references that a change under the key lets go. -/
def listAt {β : Type} (f : α → List β) (t : Table κ α) (k : κ) : List β :=
  ((t.get? k).map f).getD []

/-- What all values list together. -/
def listAll {β : Type} (f : α → List β) (t : Table κ α) : List β := t.values.flatMap f

/-- The table without a key. -/
def erase (t : Table κ α) (k : κ) : Table κ α where
  entries := t.entries.filter (fun e => e.1 != k)
  nodup := t.nodup.sublist (List.filter_sublist.map Prod.fst)

/-- The table with a value under a key, in place of any other there. -/
def insert (t : Table κ α) (k : κ) (a : α) : Table κ α where
  entries := (k, a) :: (t.erase k).entries
  nodup := by
    rw [List.map_cons, List.nodup_cons]
    refine ⟨fun h => ?_, (t.erase k).nodup⟩
    obtain ⟨e, he, hk⟩ := List.mem_map.1 h
    simp [erase, hk] at he

/-! ## 2. What is found -/

@[simp] theorem get?_empty (k : κ) : (empty : Table κ α).get? k = none := rfl

theorem lookup_filter (l : List (κ × α)) (k k' : κ) :
    (l.filter (fun e => e.1 != k)).lookup k' = if k' = k then none else l.lookup k' := by
  induction l with
  | nil => simp
  | cons e rest ih =>
    obtain ⟨j, a⟩ := e
    grind

/-- What is found without a key. -/
theorem get?_erase (t : Table κ α) (k k' : κ) :
    (t.erase k).get? k' = if k' = k then none else t.get? k' :=
  lookup_filter t.entries k k'

/-- What is found with a value under a key. -/
theorem get?_insert (t : Table κ α) (k k' : κ) (a : α) :
    (t.insert k a).get? k' = if k' = k then some a else t.get? k' := by
  have h := get?_erase t k k'
  unfold get? at h
  by_cases hk : k' = k
  · simp [get?, insert, hk]
  · have hb : (k' == k) = false := by simpa using hk
    simp only [get?, insert, List.lookup_cons, hb, h, hk, if_false]

/-- A key is one of the keys exactly if there is a value under it. -/
theorem mem_keys_iff (t : Table κ α) (k : κ) :
    k ∈ t.entries.map Prod.fst ↔ t.contains k = true := by
  unfold contains get?
  induction t.entries with
  | nil => simp
  | cons e rest ih =>
    obtain ⟨j, a⟩ := e
    by_cases hk : k = j
    · simp [hk]
    · have hb : (k == j) = false := by simpa using hk
      rw [List.map_cons, List.mem_cons, List.lookup_cons, hb, ih]
      simp [hk]

@[simp] theorem listAt_insert {β : Type} (f : α → List β) (t : Table κ α) (k : κ) (a : α) :
    (t.insert k a).listAt f k = f a := by
  rw [listAt, get?_insert, if_pos rfl]
  rfl

/-! ## 3. Values -/

/-- Taking a key out takes out exactly its value. -/
theorem perm_values_erase {t : Table κ α} {k : κ} {a : α} (h : t.get? k = some a) :
    t.values.Perm (a :: (t.erase k).values) := by
  obtain ⟨entries, nodup⟩ := t
  simp only [values, erase, get?] at *
  induction entries with
  | nil => simp at h
  | cons e rest ih =>
    obtain ⟨j, b⟩ := e
    rw [List.map_cons, List.nodup_cons] at nodup
    by_cases hk : k = j
    · subst hk
      have hb : b = a := by simpa [List.lookup_cons] using h
      have hrest : rest.filter (fun e => e.1 != k) = rest := by
        rw [List.filter_eq_self]
        intro e he
        have hne : e.1 ≠ k := fun hj => nodup.1 (hj ▸ List.mem_map.2 ⟨e, he, rfl⟩)
        simpa using hne
      simp [hb, hrest]
    · have hb : (k == j) = false := by simpa using hk
      have hj : j ≠ k := fun hj => hk hj.symm
      simp only [List.lookup_cons, hb] at h
      have := (ih nodup.2 h).cons b
      simpa [List.filter_cons, hj] using this.trans (List.Perm.swap ..)

/-- A key that is not there takes nothing out. -/
theorem erase_of_get?_eq_none {t : Table κ α} {k : κ} (h : t.get? k = none) : t.erase k = t := by
  obtain ⟨entries, nodup⟩ := t
  simp only [erase, get?, mk.injEq, List.filter_eq_self] at *
  intro e he
  have hne : e.1 ≠ k := fun hk => by simpa [hk] using (List.lookup_eq_none_iff.1 h) e he
  simpa using hne

/-- Each entry is found under its key. -/
theorem get?_of_mem_entries {t : Table κ α} {k : κ} {a : α} (h : (k, a) ∈ t.entries) :
    t.get? k = some a := by
  obtain ⟨entries, nodup⟩ := t
  simp only [get?] at *
  induction entries with
  | nil => exact absurd h List.not_mem_nil
  | cons e rest ih =>
    rw [List.map_cons, List.nodup_cons] at nodup
    rcases List.mem_cons.mp h with rfl | hrest
    · simp
    · have hne : k ≠ e.1 := fun hk => nodup.1 (hk ▸ List.mem_map_of_mem (f := Prod.fst) hrest)
      have hb : (k == e.1) = false := by simpa using hne
      rw [List.lookup_cons, hb]
      exact ih nodup.2 hrest

/-- Where no value is under two keys, no value is listed twice. -/
theorem nodup_values {t : Table κ α}
    (h : ∀ k k' a, t.get? k = some a → t.get? k' = some a → k = k') : t.values.Nodup := by
  have hkeys : t.entries.Pairwise fun e e' => e.1 ≠ e'.1 := List.pairwise_map.mp t.nodup
  refine List.pairwise_map.mpr (hkeys.imp_of_mem fun {e e'} he he' hne heq => hne ?_)
  exact h e.1 e'.1 e.2 (get?_of_mem_entries he) (heq ▸ get?_of_mem_entries he')

/-- Putting a value under a key does not change the other entries. -/
theorem erase_insert (t : Table κ α) (k : κ) (a : α) : (t.insert k a).erase k = t.erase k := by
  simp [erase, insert, List.filter_filter]

theorem erase_erase (t : Table κ α) (k : κ) : (t.erase k).erase k = t.erase k := by
  simp [erase, List.filter_filter]

/-- What is listed under a key, and what all others list. -/
theorem perm_listAll_erase {β : Type} (f : α → List β) (t : Table κ α) (k : κ) :
    (t.listAt f k ++ (t.erase k).listAll f).Perm (t.listAll f) := by
  unfold listAt listAll
  cases h : t.get? k with
  | none => rw [erase_of_get?_eq_none h]; exact .refl _
  | some a => exact ((perm_values_erase h).flatMap_right f).symm

/-- What is replaced and what is there afterwards make up what was there and what is put. -/
theorem perm_listAll_insert {β : Type} (f : α → List β) (t : Table κ α) (k : κ) (a : α) :
    (t.listAt f k ++ (t.insert k a).listAll f).Perm (f a ++ t.listAll f) :=
  (List.perm_append_comm_assoc ..).trans ((perm_listAll_erase f t k).append_left (f a))

omit [DecidableEq κ] in
theorem mem_listAll_iff {β : Type} {f : α → List β} {t : Table κ α} {x : β} :
    x ∈ t.listAll f ↔ ∃ a ∈ t.values, x ∈ f a := List.mem_flatMap

/-- What is found is one of the values. -/
theorem mem_values_of_get? {t : Table κ α} {k : κ} {a : α} (h : t.get? k = some a) :
    a ∈ t.values := (perm_values_erase h).mem_iff.2 List.mem_cons_self

/-- Taking a key out adds nothing to what is listed. -/
theorem mem_listAll_of_erase {β : Type} {f : α → List β} {t : Table κ α} {k : κ} {x : β}
    (h : x ∈ (t.erase k).listAll f) : x ∈ t.listAll f :=
  (perm_listAll_erase f t k).mem_iff.1 (List.mem_append_right _ h)

/-- Putting a value adds to what is listed only what it lists itself. -/
theorem mem_listAll_of_insert {β : Type} {f : α → List β} {t : Table κ α} {k : κ} {a : α} {x : β}
    (h : x ∈ (t.insert k a).listAll f) : x ∈ f a ∨ x ∈ t.listAll f :=
  List.mem_append.1 ((perm_listAll_insert f t k a).mem_iff.1 (List.mem_append_right _ h))

/-- The values after one of two keys is replaced and the other is taken out. -/
example : (((empty.insert 1 'a').insert 2 'b').insert 1 'c').values = ['c', 'b'] ∧
    (((empty.insert 1 'a').insert 2 'b').erase 1).get? 1 = none := by decide

end Table
end Interchange
