/-
# Sessions stay balanced

In every session that a run leads to, each cell is counted once for each reference to it, every
reference finds the cell that it expects, and no cell is there that nothing refers to.  In between,
a move takes references before it gives them to a name: then they are held besides.

* `Sound.retain`, `Sound.alloc`, `Sound.hold`: references are taken;
* `Sound.putDatum`, `Sound.putValue`, `Sound.putHandle`: what was taken is given to a name;
* `Move.sound`: each move keeps a session sound;
* `Reachable.sound`: so does a run.
-/
import Interchange.Proofs.Script.Links
import Interchange.Proofs.Script.Registry

namespace Interchange.Script

open Store (Knows)

namespace Session

/-! ## 1. What a session holds -/

/-- The links held by names and by the table of wrappers. -/
def links (s : Session) : List Link :=
  s.heap.wrappers.values.map (⟨·, .object⟩) ++ s.data.listAll Datum.links ++
    s.values.listAll Value.links ++ s.handles.listAll Persistent.links

theorem map_links (s : Session) : s.links.map Link.ref = s.roots := by
  have hwrappers : (s.heap.wrappers.values.map fun r => (⟨r, .object⟩ : Link)).map Link.ref =
      s.heap.wrappers.values := by
    rw [List.map_map]
    exact List.map_id _
  simp only [links, roots, List.map_append, hwrappers, Table.map_listAll Datum.map_links,
    Table.map_listAll Value.map_links, Table.map_listAll Persistent.map_links]

/-- The session is balanced and typed while some links are held besides its names.  A move takes
references before it gives them to a name, and lets go what the name held only after that, so that
nothing is freed that is still needed; the links in between are `taken`.  Between two moves there
are none. -/
structure Sound (s : Session) (taken : List Link) : Prop where
  balanced : s.heap.store.Balanced (taken.map Link.ref ++ s.roots)
  typed : s.heap.store.Typed (taken ++ s.links)
  counted : s.heap.store.Counted

theorem sound_default : (default : Session).Sound [] where
  balanced := balanced_default
  typed := Store.typed_default
  counted := Store.counted_default

variable {s : Session} {taken : List Link}

/-! ## 2. Taking references -/

theorem Sound.rearrange {s' : Session} {taken' : List Link} (h : s.Sound taken)
    (hstore : s'.heap.store = s.heap.store)
    (hp : (taken ++ s.links).Perm (taken' ++ s'.links)) : s'.Sound taken' where
  balanced := by
    have hrefs := hp.map Link.ref
    rw [List.map_append, List.map_append, map_links, map_links] at hrefs
    rw [hstore]
    exact h.balanced.perm hrefs
  typed := by
    rw [hstore]
    exact h.typed.mono fun l hl => hp.mem_iff.mpr hl
  counted := by
    rw [hstore]
    exact h.counted

/-- **Another reference to each of some cells that are referred to.**  Each link must be held
already, by a name, the table, a cell or in between: a cell that was freed is not there to be
counted again. -/
theorem Sound.retain {more : List Link} {refs : List Ref} (h : s.Sound taken)
    (hrefs : more.map Link.ref = refs)
    (hk : ∀ l ∈ more, Knows s.heap.store (taken ++ s.links) l) :
    (s.retain refs).Sound (more ++ taken) where
  balanced := by
    have hmem : ∀ r ∈ refs, r ∈ (taken.map Link.ref ++ s.roots) ++ s.heap.store.held := by
      rw [← hrefs]
      intro r hr
      obtain ⟨l, hl, rfl⟩ := List.mem_map.mp hr
      have := (hk l hl).mem
      rwa [List.map_append, map_links] at this
    have hb := h.balanced.retain hmem
    rw [List.map_append, hrefs, List.append_assoc]
    exact hb
  typed := by
    refine ⟨fun l hl => ?_, (h.typed.retain refs).cells⟩
    rw [List.append_assoc] at hl
    rcases List.mem_append.mp hl with hl | hl
    · exact ((hk l hl).fits h.typed).mono (.retain s.heap.store refs)
    · exact (h.typed.retain refs).roots l hl
  counted := h.counted.retain refs

/-- **A new cell takes over the links that its content holds.** -/
theorem Sound.alloc (content : Content) (h : s.Sound (content.links ++ taken)) :
    Sound { s with heap := (s.heap.alloc content).1 }
      (⟨(s.heap.alloc content).2, content.shape⟩ :: taken) where
  balanced := by
    have hb := h.balanced
    rw [List.map_append, content.map_links, List.append_assoc] at hb
    exact hb.alloc
  typed := by
    have ht := h.typed
    rw [List.append_assoc] at ht
    exact ht.alloc
  counted := h.counted.alloc content

theorem Sound.release {more : List Link} {refs : List Ref} (h : s.Sound (more ++ taken))
    (hrefs : more.map Link.ref = refs) : (s.release refs).Sound taken where
  balanced := by
    have hb := h.balanced
    rw [List.map_append, hrefs, List.append_assoc] at hb
    exact hb.release
  typed := by
    refine (h.typed.mono fun l hl => ?_).release refs
    rw [List.append_assoc]
    exact List.mem_append_right _ hl
  counted := h.counted.release refs

/-- **A new box takes over the references to what it holds.** -/
theorem Sound.hold {d : Datum} (h : s.Sound [])
    (hk : ∀ l ∈ d.links, Knows s.heap.store s.links l) :
    Sound { s with heap := (s.heap.hold d).1 } (s.heap.hold d).2.links :=
  Sound.alloc (.box d) (h.retain d.map_links hk)

theorem Sound.keep {d : Datum} (h : s.Sound []) (lifetime : Lifetime)
    (hk : ∀ l ∈ d.links, Knows s.heap.store s.links l) :
    Sound { s with heap := (s.heap.keep lifetime d).1 } (s.heap.keep lifetime d).2.links := by
  cases lifetime with
  | transient =>
    have ht := h.retain d.map_links hk
    rw [List.append_nil] at ht
    exact ht
  | persistent => exact h.hold hk

/-! ## 3. Giving references to names -/

/-- **A name takes over the links of a datum**, and lets go those of what it named before. -/
theorem Sound.putDatum {d : Datum} (h : s.Sound d.links) (name : String) :
    (s.putDatum name d).Sound [] where
  balanced := by
    have hb := h.balanced
    rw [d.map_links] at hb
    exact balanced_putDatum hb name
  typed := by
    refine (h.typed.mono fun l hl => ?_).release _
    simp only [links, List.mem_append, List.nil_append] at hl ⊢
    rcases hl with ((hl | hl) | hl) | hl
    · exact .inr (.inl (.inl (.inl hl)))
    · exact (Table.mem_listAll_of_insert hl).imp id fun hl => .inl (.inl (.inr hl))
    · exact .inr (.inl (.inr hl))
    · exact .inr (.inr hl)
  counted := h.counted.release _

/-- **A name takes over the links of a value**, and lets go those of what it named before. -/
theorem Sound.putValue {v : Value Datum} (h : s.Sound v.links) (name : String) :
    (s.putValue name v).Sound [] where
  balanced := by
    have hb := h.balanced
    rw [v.map_links] at hb
    exact balanced_putValue hb name
  typed := by
    refine (h.typed.mono fun l hl => ?_).release _
    simp only [links, List.mem_append, List.nil_append] at hl ⊢
    rcases hl with ((hl | hl) | hl) | hl
    · exact .inr (.inl (.inl (.inl hl)))
    · exact .inr (.inl (.inl (.inr hl)))
    · exact (Table.mem_listAll_of_insert hl).imp id fun hl => .inl (.inr hl)
    · exact .inr (.inr hl)
  counted := h.counted.release _

/-- **A name takes over the link of a persistent handle**, and lets go that of what it named
before. -/
theorem Sound.putHandle {p : Persistent Datum} (h : s.Sound p.links) (name : String) :
    (s.putHandle name p).Sound [] where
  balanced := balanced_putHandle h.balanced name
  typed := by
    refine (h.typed.mono fun l hl => ?_).release _
    simp only [links, List.mem_append, List.nil_append] at hl ⊢
    rcases hl with ((hl | hl) | hl) | hl
    · exact .inr (.inl (.inl (.inl hl)))
    · exact .inr (.inl (.inl (.inr hl)))
    · exact .inr (.inl (.inr hl))
    · exact (Table.mem_listAll_of_insert hl).imp id fun hl => .inr hl
  counted := h.counted.release _

theorem Sound.dropDatum (h : s.Sound []) (name : String) : (s.dropDatum name).Sound [] where
  balanced := balanced_dropDatum h.balanced name
  typed := by
    refine (h.typed.mono fun l hl => ?_).release _
    simp only [links, List.mem_append, List.nil_append] at hl ⊢
    exact hl.imp (.imp (.imp id Table.mem_listAll_of_erase) id) id
  counted := h.counted.release _

theorem Sound.dropValue (h : s.Sound []) (name : String) : (s.dropValue name).Sound [] where
  balanced := balanced_dropValue h.balanced name
  typed := by
    refine (h.typed.mono fun l hl => ?_).release _
    simp only [links, List.mem_append, List.nil_append] at hl ⊢
    exact hl.imp (.imp id Table.mem_listAll_of_erase) id
  counted := h.counted.release _

theorem Sound.dropHandle (h : s.Sound []) (name : String) : (s.dropHandle name).Sound [] where
  balanced := balanced_dropHandle h.balanced name
  typed := by
    refine (h.typed.mono fun l hl => ?_).release _
    simp only [links, List.mem_append, List.nil_append] at hl ⊢
    exact hl.imp id Table.mem_listAll_of_erase
  counted := h.counted.release _

/-! ## 4. What a session knows -/

theorem mem_links_data {name : String} {d : Datum} {l : Link} (h : s.data.get? name = some d)
    (hl : l ∈ d.links) : l ∈ s.links := by
  have hall : l ∈ s.data.listAll Datum.links :=
    Table.mem_listAll_iff.mpr ⟨d, Table.mem_values_of_get? h, hl⟩
  exact List.mem_append_left _ (List.mem_append_left _ (List.mem_append_right _ hall))

theorem mem_links_values {name : String} {v : Value Datum} {l : Link}
    (h : s.values.get? name = some v) (hl : l ∈ v.links) : l ∈ s.links := by
  have hall : l ∈ s.values.listAll Value.links :=
    Table.mem_listAll_iff.mpr ⟨v, Table.mem_values_of_get? h, hl⟩
  exact List.mem_append_left _ (List.mem_append_right _ hall)

theorem mem_links_handles {name : String} {p : Persistent Datum} {l : Link}
    (h : s.handles.get? name = some p) (hl : l ∈ p.links) : l ∈ s.links :=
  List.mem_append_right _ (Table.mem_listAll_iff.mpr ⟨p, Table.mem_values_of_get? h, hl⟩)

theorem Holds.mem_links {p : Persistent Datum} (h : s.Holds p) {l : Link} (hl : l ∈ p.links) :
    l ∈ s.links := by
  cases h with
  | named hp => exact mem_links_handles hp hl
  | inside hv => exact mem_links_values hv hl

/-- A persistent handle finds its box, and in it what it holds. -/
theorem Sound.exists_box (hs : s.Sound []) {p : Persistent Datum}
    (hp : ∀ l ∈ p.links, l ∈ s.links) :
    ∃ c, s.heap.store.cell? p.box = some c ∧ c.content = .box p.held := by
  have hb := hs.balanced
  have hknown : Knows s.heap.store s.links ⟨p.box, .box p.held⟩ :=
    .inl (hp _ List.mem_cons_self)
  rw [List.map_nil, List.nil_append, ← map_links] at hb
  obtain ⟨c, hc, hshape⟩ := hknown.exists_cell hs.typed hb
  refine ⟨c, hc, ?_⟩
  cases hcontent : c.content with
  | object | function =>
    rw [hcontent] at hshape
    contradiction
  | box held =>
    rw [hcontent] at hshape
    cases hshape
    rfl

/-- What a persistent handle holds is known through its box. -/
theorem Sound.knows_held (hs : s.Sound []) {p : Persistent Datum}
    (hp : ∀ l ∈ p.links, l ∈ s.links) {l : Link} (hl : l ∈ p.held.links) :
    Knows s.heap.store s.links l := by
  obtain ⟨c, hc, hcontent⟩ := hs.exists_box hp
  refine .inr ⟨p.box, c, hc, ?_⟩
  rw [hcontent]
  exact hl

/-- **A session knows what it reads.** -/
theorem Reads.knows (hs : s.Sound []) {d : Datum} (h : s.Reads d) {l : Link} (hl : l ∈ d.links) :
    Knows s.heap.store s.links l := by
  cases h with
  | atom a => exact absurd hl List.not_mem_nil
  | named hd => exact .inl (mem_links_data hd hl)
  | @property name e key hd =>
    cases e with
    | atom | function => exact absurd hl List.not_mem_nil
    | object r =>
      simp only [Heap.get] at hl
      split at hl
      · next native properties hcontent =>
        obtain ⟨c, hc, hobject⟩ := Option.map_eq_some_iff.mp hcontent
        cases hvalue : properties.get? key with
        | none =>
          rw [hvalue] at hl
          exact absurd hl List.not_mem_nil
        | some value =>
          rw [hvalue] at hl
          refine .inr ⟨r, c, hc, ?_⟩
          rw [hobject]
          exact Table.mem_listAll_iff.mpr ⟨value, Table.mem_values_of_get? hvalue, hl⟩
      · exact absurd hl List.not_mem_nil
  | wrapper hd =>
    obtain ⟨r, hr, rfl⟩ := Option.map_eq_some_iff.mp hd
    obtain rfl := List.mem_singleton.mp hl
    have hall := List.mem_map_of_mem (f := fun r => (⟨r, .object⟩ : Link))
      (Table.mem_values_of_get? hr)
    exact .inl (List.mem_append_left _ (List.mem_append_left _ (List.mem_append_left _ hall)))
  | @kept name v d hv hd =>
    cases v with
    | transient e =>
      cases hd
      exact .inl (mem_links_values hv hl)
    | persistent p =>
      cases hd
      exact hs.knows_held (fun l hl => mem_links_values hv hl) hl
    | undefined | null | boolean | integer | long | number | date | string | object | type
    | marker => contradiction
  | held hp => exact hs.knows_held (fun l hl => mem_links_handles hp hl) hl

/-! ## 5. Moves -/

/-- A new datum is held besides. -/
theorem Sound.create (h : s.Sound []) (seed : Seed) :
    (s.create seed).1.Sound (s.create seed).2.links := by
  cases seed with
  | atom a => exact h
  | object => exact Sound.alloc (.object none .empty) h
  | function name body => exact Sound.alloc (.function name body) h

/-- **Storing a property keeps a session sound.**  The value is retained first, the slot is written
next and what it held is released last, so that a property can be stored over itself when the slot
holds the last reference to it.  What is no object takes no property, and nothing changes. -/
theorem Sound.set {d value : Datum} (h : s.Sound [])
    (hk : ∀ l ∈ value.links, Knows s.heap.store s.links l) (key : String) :
    Sound { s with heap := s.heap.set d key value } [] := by
  cases d with
  | atom | function => exact h
  | object r =>
    simp only [Heap.set]
    split
    · next native properties hcontent =>
      have ht := h.retain value.map_links hk
      rw [List.append_nil] at ht
      rw [← s.heap.store.content?_retain value.refs] at hcontent
      obtain ⟨c, hc, hobject⟩ := Option.map_eq_some_iff.mp hcontent
      have hperm : ((Content.object native (properties.insert key value)).refs ++
          (properties.listAt Datum.refs key ++ s.roots)).Perm
          (c.content.refs ++ (value.refs ++ s.roots)) := by
        refine List.perm_iff_count.mpr fun q => ?_
        have hp := (properties.perm_listAll_insert Datum.refs key value).count_eq q
        rw [hobject]
        simp only [Content.refs, List.count_append] at hp ⊢
        omega
      have hb := ht.balanced
      rw [value.map_links] at hb
      refine ⟨(hb.update hc hperm).release, ?_, (ht.counted.update r _).release _⟩
      have hlinks : ∀ l ∈ (Content.object native (properties.insert key value)).links,
          (s.retain value.refs).heap.store.Fits l := by
        intro l hl
        rcases Table.mem_listAll_of_insert hl with hl | hl
        · exact ht.typed.roots l (List.mem_append_left _ hl)
        · refine ht.typed.cells r c hc l ?_
          rw [hobject]
          exact hl
      refine ((ht.typed.update hc ?_ hlinks).release _).mono fun l hl =>
        List.mem_append_right _ hl
      rw [hobject]
      rfl
    · exact h

/-- **A new registered object is in the table, and its wrapper is held besides.**  The cell is
counted twice from the start, once for the table and once for the caller; when the caller drops it
the table still has it.  No number in the table is above the last one, so that the entry takes no
other's place. -/
theorem Sound.register (h : s.Sound []) (hr : s.heap.Registered) :
    Sound { s with heap := s.heap.register.1 } s.heap.register.2.2.links := by
  have hfresh : s.heap.wrappers.get? ⟨s.heap.lastId + 1⟩ = none := by
    cases hget : s.heap.wrappers.get? ⟨s.heap.lastId + 1⟩ with
    | none => rfl
    | some r => exact absurd (hr.number_le _ r hget) (Nat.not_succ_le_self s.heap.lastId)
  let wrapper : Link := ⟨s.heap.store.cells.length, .object⟩
  have hone : Sound { s with heap := _ } [wrapper] :=
    Sound.alloc (.object (some ⟨s.heap.lastId + 1⟩) .empty) h
  have hrefs : [wrapper].map Link.ref = [s.heap.store.cells.length] := rfl
  -- the table holds the wrapper, and so does the caller
  have htwo := hone.retain hrefs fun l hl => .inl (List.mem_append_left _ hl)
  refine htwo.rearrange rfl ?_
  have hvalues : s.heap.register.1.wrappers.values =
      s.heap.store.cells.length :: s.heap.wrappers.values := by
    show _ :: (s.heap.wrappers.erase _).values = _
    rw [Table.erase_of_get?_eq_none hfresh]
  show List.Perm _ (_ ++ (s.heap.register.1.wrappers.values.map _ ++ _ ++ _ ++ _))
  rw [hvalues]
  exact .refl _

theorem Sound.detach (h : s.Sound []) (r : Ref) :
    Sound { s with heap := { s.heap with store := Heap.detach s.heap.store r } } [] := by
  unfold Heap.detach
  split
  · next native properties hcontent =>
    obtain ⟨c, hc, hobject⟩ := Option.map_eq_some_iff.mp hcontent
    refine ⟨h.balanced.update hc ?_, h.typed.update hc ?_ fun l hl => h.typed.cells r c hc l ?_,
      h.counted.update r _⟩
    all_goals rw [hobject]
    · exact .refl _
    · rfl
    · exact hl
  · exact h

/-- **The wrapper of a released object leaves the table and is held besides.**  Its count stays as
it is: the reference of the table goes to the caller, who may keep the object, now one that wraps
nothing. -/
theorem Sound.unregister {id : ObjectId} {heap : Heap} {d : Datum} (h : s.Sound [])
    (hu : s.heap.unregister id = .ok (heap, d)) : Sound { s with heap } d.links := by
  obtain ⟨r, hget, rfl, rfl⟩ := Heap.exists_of_unregister hu
  refine (h.detach r).rearrange rfl ?_
  have hp := (Table.perm_values_erase hget).map fun r => (⟨r, .object⟩ : Link)
  exact ((hp.append_right _).append_right _).append_right _

/-- **Each move keeps a session sound.**  Nothing is held besides the names before it and after it,
and in between it takes what it stores.  That the table agrees with the cells is needed where an
object is registered, since an entry under a number in use would be replaced without being released.
-/
theorem Move.sound {t : Session} {event : Option Event} (hm : s.Move event t)
    (hr : s.heap.Registered) (h : s.Sound []) : t.Sound [] := by
  cases hm with
  | share name hd =>
    have ht := h.retain (Datum.map_links _) fun l hl => hd.knows h hl
    rw [List.append_nil] at ht
    exact ht.putDatum name
  | create seed name => exact (h.create seed).putDatum name
  | dropDatum name => exact h.dropDatum name
  | set key _ hvalue => exact h.set (fun l hl => .inl (mem_links_data hvalue hl)) key
  | register name => exact (h.register hr).putDatum name
  | unregister name hu => exact (h.unregister hu).putDatum name
  | discard hu =>
    have ht := h.unregister hu
    rw [← List.append_nil (Datum.links _)] at ht
    exact ht.release (Datum.map_links _)
  | @plain v name hv =>
    have hlinks : v.links = [] := List.map_eq_nil_iff.mp (v.map_links.trans hv)
    refine Sound.putValue ?_ name
    rw [hlinks]
    exact h
  | keep name lifetime hd =>
    exact (h.keep lifetime fun l hl => .inl (mem_links_data hd hl)).putValue name
  | copy name hv =>
    have ht := h.retain (Value.map_links _) fun l hl => .inl (mem_links_values hv hl)
    rw [List.append_nil] at ht
    exact ht.putValue name
  | enclose name hp =>
    exact (h.retain (Persistent.map_links _) fun l hl => .inl (hp.mem_links hl)).putValue name
  | dropValue name => exact h.dropValue name
  | hold name hd => exact (h.hold fun l hl => .inl (mem_links_data hd hl)).putHandle name
  | handle name hp =>
    exact (h.retain (Persistent.map_links _) fun l hl => .inl (hp.mem_links hl)).putHandle name
  | dropHandle name => exact h.dropHandle name

/-- **Every session that a run leads to is sound.**  A run makes moves from the session that has no
cells, and both the agreement of the table and soundness are carried along them. -/
theorem Reachable.sound (h : s.Reachable) : s.Sound [] := by
  obtain ⟨commands, replies, hrun⟩ := h
  have hboth : s.heap.Registered ∧ s.Sound [] :=
    (moves_run hrun).invariant (I := fun s => s.heap.Registered ∧ s.Sound [])
      (fun hm hs => ⟨Heap.registered_steps hs.1 hm.steps, hm.sound hs.1 hs.2⟩)
      ⟨Heap.registered_default, sound_default⟩
  exact hboth.2

end Session
end Interchange.Script
