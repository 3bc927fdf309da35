/-
# Exchanging values with a runtime

A runtime is known by what it tells of a handle and by how it makes handles.  `classify` turns a
handle into a value: the first question that the runtime affirms decides, in a fixed order, and a
handle that no question covers is kept.  `toHandle` goes back.

The conversion reaches a runtime through three collaborators: what a handle tells of itself, the
registry that finds the object a handle wraps, and the factory of handles.  `Facets` is the first;
`Runtime` puts the three together.  The two directions are `classify` and `toHandle`, after
`classify` and `to_handle`.  `recognise` is the part of the first that no lifetime concerns: the
questions up to the registry's, in their order.

* `toHandle_object_stale`: a reference to an object that is gone becomes null.
-/
import Interchange.Value.Basic

namespace Interchange

/-! ## 1. Runtimes -/

/-- What a runtime tells of one handle: ten questions and three contents.  A runtime without empty
handles or boxed primitives leaves those questions out.  Nothing keeps a runtime from affirming two
questions, and then their order counts. -/
structure Facets where
  isEmpty : Bool := false
  isUndefined : Bool
  isNull : Bool
  isDate : Bool
  isBoolean : Bool
  isBooleanWrapper : Bool := false
  isNumber : Bool
  isNumberWrapper : Bool := false
  isString : Bool
  isStringWrapper : Bool := false
  /-- The boolean inside. -/
  boolean : Bool
  /-- The number inside; of a date, the milliseconds since the epoch. -/
  number : Double
  /-- The text inside. -/
  string : String

/-- What is told of a handle that no question covers. -/
def Facets.unrecognised : Facets where
  isUndefined := false
  isNull := false
  isDate := false
  isBoolean := false
  isNumber := false
  isString := false
  boolean := false
  number := Double.quietNaN
  string := ""

/-- How values are read from handles and handles are made.  No law is assumed: what comes back is a
matter of the runtime, and is proved for the script heap. -/
structure Runtime (H : Type) where
  facets : H → Facets
  /-- The registered object that a handle wraps. -/
  resolve : H → Option ObjectId
  undefined : H
  null : H
  boolean : Bool → H
  int32 : Int32 → H
  number : Double → H
  /-- A date from milliseconds; a not-a-number makes an invalid date. -/
  date : Double → H
  string : String → H
  /-- The wrapper of a registered object, while it is registered. -/
  wrapObject : ObjectId → Option H

/-- How a handle that no kind covers is kept. -/
inductive Lifetime where
  | transient
  | persistent
  deriving DecidableEq

/-- Where nothing is said, handles are borrowed. -/
instance : Inhabited Lifetime := ⟨.transient⟩

namespace Value

variable {H : Type}

/-! ## 2. From handles to values -/

/-- The value of a handle that some kind covers.  A date that is a not-a-number, or an infinity, has
the empty instant for its value. -/
def recognise (runtime : Runtime H) (handle : H) : Option (Value H) :=
  let f := runtime.facets handle
  if f.isEmpty || f.isUndefined then some .undefined
  else if f.isNull then some .null
  else if f.isDate then some (.date (Instant.ofMillis f.number))
  else if f.isBoolean || f.isBooleanWrapper then some (.boolean f.boolean)
  else if f.isNumber || f.isNumberWrapper then some (ofNumber f.number)
  else if f.isString || f.isStringWrapper then some (.string f.string)
  else (runtime.resolve handle).map .object

/-- A handle kept as a value; a persistent one gets the given box. -/
def keep (lifetime : Lifetime) (box : Nat) (handle : H) : Value H :=
  match lifetime with
  | .transient => .transient handle
  | .persistent => .persistent ⟨box, handle⟩

/-- The value of a handle: never a failure, because a handle that nothing covers is kept.  `box` is
the box that a new persistent handle gets. -/
def classify (runtime : Runtime H) (lifetime : Lifetime) (box : Nat) (handle : H) : Value H :=
  (recognise runtime handle).getD (keep lifetime box handle)

/-! ## 3. From values to handles -/

/-- The handle of a value.  A stale object reference becomes null, as the placeholders do.  A wide
integer becomes a number, which rounds it. -/
def toHandle (runtime : Runtime H) : Value H → H
  | .undefined => runtime.undefined
  | .null | .type | .marker => runtime.null
  | .boolean b => runtime.boolean b
  | .integer n => runtime.int32 n
  | .long n => runtime.number (Double.ofInt n.toInt)
  | .number x => runtime.number x
  | .date x => runtime.date x.millis
  | .string s => runtime.string s
  | .object id => (runtime.wrapObject id).getD runtime.null
  | .transient h => h
  | .persistent p => p.held

theorem toHandle_object_stale {runtime : Runtime H} {id : ObjectId}
    (h : runtime.wrapObject id = none) : toHandle runtime (.object id) = runtime.null := by
  simp [toHandle, h]

end Value
end Interchange
