/-
# The script heap

The heap holds the shared cells and the wrappers of registered native objects.  A native object is
registered under a fresh number together with a wrapper, the script object that stands for it.  The
table of wrappers holds a reference to each of them.  When the native object is released its wrapper
is *detached*: the script may still use it, but it stands for nothing any more.

`register`, `unregister`, `isLive` and `liveCount` are `register`, `release`, `is_live` and
`live_count` of the script heap; `resolve` and `wrapper?` are `resolve` and `wrap_object`, by which
the heap is a registry and a factory (`runtime`).  `native?`, `get`, `set`, `call` and `references`
are the operations on a script value that look into a shared cell.

References are counted where the program clones and drops.  `retain` comes before `release` in each
operation that does both, as a new value is made before the old one is dropped.

* `isLive_register`, `isLive_unregister`: what is registered after a change;
* `unregister_eq_error_iff`: releasing fails exactly where nothing is registered.
-/
import Interchange.Script.Store

namespace Interchange

open Script

/-- The references that a persistent handle holds: one to the box that its copies share. -/
def Persistent.refs (p : Persistent Datum) : List Ref := [p.box]

/-- The references that a value holds: a transient handle those of its datum. -/
def Value.refs : Value Datum → List Ref
  | .transient d => d.refs
  | .persistent p => p.refs
  | _ => []

namespace Script

/-- The shared cells, the wrappers of registered objects, and the last number that was given.

`lastId` is a machine word in the program, which wraps around, or stops the program, at the
`2 ^ 64`th registration.  Here it is a natural number: runs that get so far are outside the model,
and that no number is given twice holds of the others. -/
structure Heap where
  store : Store
  wrappers : Table ObjectId Ref
  lastId : Nat
  deriving DecidableEq

namespace Heap

instance : Inhabited Heap := ⟨⟨default, default, 0⟩⟩

/-- Why an object cannot be released. -/
inductive Error where
  | unknownObject (id : ObjectId)
  deriving DecidableEq

def Error.message : Error → String
  | .unknownObject id => s!"native object {id.number} is not registered"

/-! ## 1. References -/

def retain (h : Heap) (refs : List Ref) : Heap := { h with store := h.store.retain refs }

def release (h : Heap) (refs : List Ref) : Heap := { h with store := h.store.release refs }

/-- A new cell with one reference to it. -/
def alloc (h : Heap) (content : Content) : Heap × Ref :=
  let (store, r) := h.store.alloc content
  ({ h with store }, r)

/-- The number of references to an object or a function. -/
def references (h : Heap) : Datum → Option Nat
  | .atom _ => none
  | .object r | .function r => some (h.store.count r)

/-! ## 2. Objects and functions -/

/-- The registered object that a datum wraps, by what the object itself says. -/
def native? (h : Heap) : Datum → Option ObjectId
  | .object r =>
    match h.store.content? r with
    | some (.object native _) => native
    | _ => none
  | _ => none

/-- A property, which the caller shares; undefined where there is none, and of whatever is no
object. -/
def get (h : Heap) (d : Datum) (key : String) : Datum :=
  match d with
  | .object r =>
    match h.store.content? r with
    | some (.object _ properties) => (properties.get? key).getD default
    | _ => default
  | _ => default

/-- Stores a property, and takes a reference for it; ignored unless the datum is an object. -/
def set (h : Heap) (d : Datum) (key : String) (value : Datum) : Heap :=
  match d with
  | .object r =>
    match h.store.content? r with
    | some (.object native properties) =>
      let retained := h.store.retain value.refs
      let updated := retained.update r (.object native (properties.insert key value))
      { h with store := updated.release (properties.listAt Datum.refs key) }
    | _ => h
  | _ => h

/-- The result of a call, if the datum is a function. -/
def call (h : Heap) (d : Datum) (arguments : List Datum) : Option Datum :=
  match d with
  | .function r =>
    match h.store.content? r with
    | some (.function _ body) => some (body.apply arguments)
    | _ => none
  | _ => none

def inspect (h : Heap) : Datum → List Char
  | .atom a => a.inspect
  | .object r =>
    match h.native? (.object r) with
    | some id => "[object native#".toList ++ Decimal.digits id.number ++ [']']
    | none => "[object Object]".toList
  | .function r =>
    match h.store.content? r with
    | some (.function name _) => "[Function: ".toList ++ name.toList ++ [']']
    | _ => []

/-! ## 3. Registered objects -/

/-- Whether a number is registered. -/
def isLive (h : Heap) (id : ObjectId) : Bool := h.wrappers.contains id

def liveCount (h : Heap) : Nat := h.wrappers.size

/-- The wrapper of a registered object: the same object each time. -/
def wrapper? (h : Heap) (id : ObjectId) : Option Datum := (h.wrappers.get? id).map .object

/-- The registered object that a datum wraps, if the table knows it as well. -/
def resolve (h : Heap) (d : Datum) : Option ObjectId := (h.native? d).filter h.isLive

/-- Registers a new object under the next number.  The table takes one reference to the wrapper, the
caller another. -/
def register (h : Heap) : Heap × ObjectId × Datum :=
  let id : ObjectId := ⟨h.lastId + 1⟩
  let (store, r) := h.store.alloc (.object (some id) .empty)
  (⟨store.retain [r], h.wrappers.insert id r, h.lastId + 1⟩, id, .object r)

/-- An object that no longer stands for a registered one. -/
def detach (store : Store) (r : Ref) : Store :=
  match store.content? r with
  | some (.object _ properties) => store.update r (.object none properties)
  | _ => store

/-- Releases a registered object.  The table's reference to the wrapper passes to the caller. -/
def unregister (h : Heap) (id : ObjectId) : Except Error (Heap × Datum) :=
  match h.wrappers.get? id with
  | none => .error (.unknownObject id)
  | some r => .ok ({ h with store := detach h.store r, wrappers := h.wrappers.erase id }, .object r)

/-! ## 4. Exchange of values -/

/-- The heap as a runtime.  Integers become numbers, and each primitive is made anew. -/
def runtime (h : Heap) : Runtime Datum where
  facets := Datum.facets
  resolve := h.resolve
  undefined := .atom .undefined
  null := .atom .null
  boolean b := .atom (.boolean b)
  int32 n := .atom (.number (Double.ofInt n.toInt))
  number x := .atom (.number x)
  date ms := .atom (.date ms)
  string s := .atom (.string s)
  wrapObject := h.wrapper?

/-- A new box that holds a datum with a reference of its own: the box counts its copies, the datum
counts the box. -/
def hold (h : Heap) (d : Datum) : Heap × Persistent Datum :=
  let (h', box) := (h.retain d.refs).alloc (.box d)
  (h', ⟨box, d⟩)

/-- Keeps a datum as a handle. -/
def keep (h : Heap) (lifetime : Lifetime) (d : Datum) : Heap × Value Datum :=
  match lifetime with
  | .transient => (h.retain d.refs, .transient d)
  | .persistent =>
    let (h', p) := h.hold d
    (h', .persistent p)

/-- The value of a datum, with the references that it holds: `Value.classify` on this heap, which
takes a reference only where the datum is kept. -/
def classify (h : Heap) (lifetime : Lifetime) (d : Datum) : Heap × Value Datum :=
  match Value.recognise h.runtime d with
  | some v => (h, v)
  | none => h.keep lifetime d

/-! ## 5. Laws of registration -/

theorem isLive_register (h : Heap) (id : ObjectId) :
    h.register.1.isLive id = (decide (id = h.register.2.1) || h.isLive id) := by
  have hg : h.register.1.wrappers.get? id = if id = h.register.2.1 then some _
      else h.wrappers.get? id := Table.get?_insert ..
  unfold isLive Table.contains
  rw [hg]
  by_cases hid : id = h.register.2.1
  · rw [if_pos hid, decide_eq_true hid]
    rfl
  · rw [if_neg hid, decide_eq_false hid, Bool.false_or]

theorem isLive_unregister {h h' : Heap} {id : ObjectId} {d : Datum}
    (hu : h.unregister id = .ok (h', d)) (id' : ObjectId) :
    h'.isLive id' = (decide (id' ≠ id) && h.isLive id') := by
  unfold unregister at hu
  split at hu
  · contradiction
  · cases hu
    simp only [isLive, Table.contains, Table.get?_erase]
    split <;> simp_all

theorem unregister_eq_error_iff (h : Heap) (id : ObjectId) (e : Error) :
    h.unregister id = .error e ↔ e = .unknownObject id ∧ h.isLive id = false := by
  unfold unregister isLive Table.contains
  cases h.wrappers.get? id with
  | none => exact ⟨fun he => ⟨(Except.error.inj he).symm, rfl⟩, fun he => by rw [he.1]⟩
  | some r => simp

/-- A wrapper that is released is detached, and an unknown number has an error of its own. -/
example :
    let h := (default : Heap).register.1
    h.resolve (.object 0) = some ⟨1⟩ ∧ h.references (.object 0) = some 2 ∧
      ((h.unregister ⟨1⟩).toOption.map (fun p => p.1.inspect p.2)) =
        some "[object Object]".toList ∧
      (h.unregister ⟨7⟩).toOption = none ∧
      Error.message (.unknownObject ⟨7⟩) = "native object 7 is not registered" := by
  decide +kernel

end Heap
end Script
end Interchange
