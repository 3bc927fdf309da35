/-
# Sessions

A session works on one heap under three name spaces: data of the script, values of native code, and
persistent handles on their own.  Each name holds the references of what is stored under it.
Storing under a name takes the new references first and then releases those of what was there.

A session is a program that uses the script heap: its names are the program's variables, and its
commands the operations of the two sides, one after the other.  Every state that such a program can
bring about is a session that some run of commands reaches, so what holds of all runs holds of all
uses.

* `Session.roots`: the references held from outside the heap's cells;
* `Session.Balanced`: each cell's count is the number of references to it;
* `balanced_putDatum`, `balanced_dropDatum` and so on: names keep the balance.
-/
import Interchange.Script.Heap

namespace Interchange.Script

/-! ## 1. State -/

/-- A heap, and what is named. -/
structure Session where
  heap : Heap
  data : Table String Datum
  values : Table String (Value Datum)
  handles : Table String (Persistent Datum)
  deriving DecidableEq

namespace Session

instance : Inhabited Session := ⟨⟨default, default, default, default⟩⟩

/-- The references held by names and by the table of wrappers: all that the cells' own contents do
not hold. -/
def roots (s : Session) : List Ref :=
  s.heap.wrappers.values ++ s.data.listAll Datum.refs ++ s.values.listAll Value.refs ++
    s.handles.listAll Persistent.refs

/-- Each cell's count is the number of references to it. -/
def Balanced (s : Session) : Prop := s.heap.store.Balanced s.roots

theorem balanced_default : (default : Session).Balanced := Store.balanced_nil

/-! ## 2. References and names -/

def retain (s : Session) (refs : List Ref) : Session := { s with heap := s.heap.retain refs }

def release (s : Session) (refs : List Ref) : Session := { s with heap := s.heap.release refs }

/-- Stores a datum, whose references are already taken; what was there before is let go afterwards,
so that a datum can be stored over itself. -/
def putDatum (s : Session) (name : String) (d : Datum) : Session :=
  release { s with data := s.data.insert name d } (s.data.listAt Datum.refs name)

def putValue (s : Session) (name : String) (v : Value Datum) : Session :=
  release { s with values := s.values.insert name v } (s.values.listAt Value.refs name)

def putHandle (s : Session) (name : String) (p : Persistent Datum) : Session :=
  release { s with handles := s.handles.insert name p } (s.handles.listAt Persistent.refs name)

def dropDatum (s : Session) (name : String) : Session :=
  release { s with data := s.data.erase name } (s.data.listAt Datum.refs name)

def dropValue (s : Session) (name : String) : Session :=
  release { s with values := s.values.erase name } (s.values.listAt Value.refs name)

def dropHandle (s : Session) (name : String) : Session :=
  release { s with handles := s.handles.erase name } (s.handles.listAt Persistent.refs name)

/-! ## 3. Names keep the balance -/

/-- Releasing what a change of names let go restores the balance. -/
theorem balanced_release {s : Session} {refs before : List Ref}
    (h : s.heap.store.Balanced before) (hp : (refs ++ s.roots).Perm before) :
    (s.release refs).Balanced :=
  (h.perm hp.symm).release

/-- Storing a datum turns the references that were taken for it into those of its name. -/
theorem balanced_putDatum {s : Session} {d : Datum}
    (h : s.heap.store.Balanced (d.refs ++ s.roots)) (name : String) :
    (s.putDatum name d).Balanced := by
  refine balanced_release h (List.perm_iff_count.2 fun r => ?_)
  have hp := (s.data.perm_listAll_insert Datum.refs name d).count_eq r
  simp only [roots, List.count_append] at *
  omega

/-- Storing a value turns the references that were taken for it into those of its name. -/
theorem balanced_putValue {s : Session} {v : Value Datum}
    (h : s.heap.store.Balanced (v.refs ++ s.roots)) (name : String) :
    (s.putValue name v).Balanced := by
  refine balanced_release h (List.perm_iff_count.2 fun r => ?_)
  have hp := (s.values.perm_listAll_insert Value.refs name v).count_eq r
  simp only [roots, List.count_append] at *
  omega

/-- Storing a persistent handle turns the reference that was taken for it into that of its name. -/
theorem balanced_putHandle {s : Session} {p : Persistent Datum}
    (h : s.heap.store.Balanced (p.refs ++ s.roots)) (name : String) :
    (s.putHandle name p).Balanced := by
  refine balanced_release h (List.perm_iff_count.2 fun r => ?_)
  have hp := (s.handles.perm_listAll_insert Persistent.refs name p).count_eq r
  simp only [roots, List.count_append] at *
  omega

theorem balanced_dropDatum {s : Session} (h : s.Balanced) (name : String) :
    (s.dropDatum name).Balanced := by
  refine balanced_release (show s.heap.store.Balanced s.roots from h)
    (List.perm_iff_count.2 fun r => ?_)
  have hp := (s.data.perm_listAll_erase Datum.refs name).count_eq r
  simp only [roots, List.count_append] at *
  omega

theorem balanced_dropValue {s : Session} (h : s.Balanced) (name : String) :
    (s.dropValue name).Balanced := by
  refine balanced_release (show s.heap.store.Balanced s.roots from h)
    (List.perm_iff_count.2 fun r => ?_)
  have hp := (s.values.perm_listAll_erase Value.refs name).count_eq r
  simp only [roots, List.count_append] at *
  omega

theorem balanced_dropHandle {s : Session} (h : s.Balanced) (name : String) :
    (s.dropHandle name).Balanced := by
  refine balanced_release (show s.heap.store.Balanced s.roots from h)
    (List.perm_iff_count.2 fun r => ?_)
  have hp := (s.handles.perm_listAll_erase Persistent.refs name).count_eq r
  simp only [roots, List.count_append] at *
  omega

end Session
end Interchange.Script
