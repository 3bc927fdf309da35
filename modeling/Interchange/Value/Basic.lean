/-
# Values that cross between native code and a script

A `Value H` holds exactly one of a closed set of kinds.  `H` is the type of the runtime's handles: a
value that native code has no kind for is kept as a handle, either borrowed for the current call
(transient) or held with a reference of its own (persistent).

Whole numbers are kept in the narrowest kind that holds them exactly: 32 bits, else 64 bits.  Other
numbers stay floating-point numbers, unchanged.

`Value` is the tagged value, its kinds in the order of the declaration.  `ofInteger` is
`from_integer`, `ofNumber` is `classify_number`, `ofNumeral` and `ofNumeralBytes` are the values of
parsed literals, and the questions of section 3 are the accessors, from `is_null` to `as_handle`.
A value made from a narrow or a wide integer directly keeps that kind: a `long` may hold an
integer that 32 bits would hold.

What a value owns beside its content, a reference to a shared cell, is no part of it here.  The
script side counts those references (`Value.refs`).

* `toDouble_ofInteger`: the width does not change the number;
* `equals_comm`: equality is symmetric if that of handles is.
-/
import Interchange.Instant.Basic
import Interchange.Numeral

namespace Interchange

/-! ## 1. Kinds -/

/-- The number under which a native object is registered.  It owns nothing: the object may be gone.
The number stands for one that a machine word counts, see `Heap.lastId`. -/
structure ObjectId where
  number : Nat
  deriving DecidableEq

/-- A handle held with a reference of its own.  Copies share one `box`, and with it one count; the
handle is in the box, and is written here as well because nothing ever changes it. -/
structure Persistent (H : Type) where
  box : Nat
  held : H
  deriving DecidableEq

/-- A value of one of a closed set of kinds. -/
inductive Value (H : Type) where
  | undefined
  | null
  | boolean (b : Bool)
  | integer (n : Int32)
  | long (n : Int64)
  | number (x : Double)
  | date (x : Instant)
  | string (s : String)
  | object (id : ObjectId)
  | transient (handle : H)
  | persistent (handle : Persistent H)
  /-- A placeholder; it behaves as null. -/
  | type
  /-- A placeholder; it behaves as null. -/
  | marker
  deriving DecidableEq

/-- The kind of a value; both ways of keeping a handle are one kind. -/
inductive Kind where
  | undefined | null | boolean | integer | long | number | date | string | object | handle | type
  | marker
  deriving DecidableEq

def Kind.name : Kind → String
  | .undefined => "undefined"
  | .null => "null"
  | .boolean => "boolean"
  | .integer => "integer"
  | .long => "long"
  | .number => "number"
  | .date => "date"
  | .string => "string"
  | .object => "object"
  | .handle => "handle"
  | .type => "type"
  | .marker => "persistent"

namespace Value

variable {H : Type}

instance : Inhabited (Value H) := ⟨.undefined⟩

def kind : Value H → Kind
  | .undefined => .undefined
  | .null => .null
  | .boolean _ => .boolean
  | .integer _ => .integer
  | .long _ => .long
  | .number _ => .number
  | .date _ => .date
  | .string _ => .string
  | .object _ => .object
  | .transient _ => .handle
  | .persistent _ => .handle
  | .type => .type
  | .marker => .marker

/-! ## 2. Numbers -/

/-- The value of an exact integer: 32 bits if it fits, else 64.  So every integer has one kind,
whatever it was read from. -/
def ofInteger (n : Int64) : Value H :=
  if -0x80000000 ≤ n.toInt ∧ n.toInt < 0x80000000 then .integer (Int32.ofInt n.toInt)
  else .long n

/-- The value of a script number: an integer of 64 bits becomes one, every other number stays as it
is, bit for bit.  Minus zero is an integer and loses its sign.  The limit above is itself no integer
of 64 bits, and the one below is. -/
def ofNumber (x : Double) : Value H :=
  match x.toInt? with
  | some n =>
    if -0x8000000000000000 ≤ n ∧ n < 0x8000000000000000 then ofInteger (Int64.ofInt n)
    else .number x
  | none => .number x

def ofLiteral : Literal → Value H
  | .integer n => .integer n
  | .long n => .long n
  | .number x => .number x

/-- The value of the literal that a text begins with. -/
def ofNumeral (text : List Char) : Value H := ofLiteral (Literal.read text)

/-- The value of the literal that the text in a byte buffer begins with. -/
def ofNumeralBytes (buffer : List UInt8) (length : Option Nat) : Value H :=
  ofLiteral (Literal.readBytes buffer length)

/-! ## 3. Looking inside -/

/-- Whether the value is a null to a script: null itself and the placeholders. -/
def isNull : Value H → Bool
  | .null | .type | .marker => true
  | _ => false

def isUndefined : Value H → Bool
  | .undefined => true
  | _ => false

/-- Whether the value holds a handle with a reference of its own. -/
def isPersistent : Value H → Bool
  | .persistent _ => true
  | _ => false

def toBool? : Value H → Option Bool
  | .boolean b => some b
  | _ => none

/-- The integer inside, of either width. -/
def toInteger? : Value H → Option Int64
  | .integer n => some n.toInt64
  | .long n => some n
  | _ => none

/-- The number inside, of any kind, as a floating-point number: rounded, if it is a wide integer. -/
def toDouble? : Value H → Option Double
  | .integer n => some (Double.ofInt n.toInt)
  | .long n => some (Double.ofInt n.toInt)
  | .number x => some x
  | _ => none

def toString? : Value H → Option String
  | .string s => some s
  | _ => none

def toInstant? : Value H → Option Instant
  | .date x => some x
  | _ => none

def toObject? : Value H → Option ObjectId
  | .object id => some id
  | _ => none

/-- The handle inside, however it is kept. -/
def toHandle? : Value H → Option H
  | .transient h => some h
  | .persistent p => some p.held
  | _ => none

/-- The same value with other handles in place of its own. -/
def map {K : Type} (f : H → K) : Value H → Value K
  | .undefined => .undefined
  | .null => .null
  | .boolean b => .boolean b
  | .integer n => .integer n
  | .long n => .long n
  | .number x => .number x
  | .date x => .date x
  | .string s => .string s
  | .object id => .object id
  | .transient h => .transient (f h)
  | .persistent p => .persistent ⟨p.box, f p.held⟩
  | .type => .type
  | .marker => .marker

/-- A value that keeps no handle, as a value of any runtime. -/
def ofPlain (v : Value Empty) : Value H := v.map Empty.elim

/-- The value with text added at its end, if it is text. -/
def append? (v : Value H) (suffix : String) : Option (Value H) :=
  match v with
  | .string s => some (.string (s ++ suffix))
  | _ => none

/-! ## 4. Equality -/

/-- Equality of values, given that of handles.  Kinds never mix; numbers compare as numbers,
instants as instants, and persistent handles by the box that they share.  So the integer one and the
number one differ, and a not-a-number differs from itself while the empty instant does not. -/
def equals (same : H → H → Bool) : Value H → Value H → Bool
  | .undefined, .undefined => true
  | .null, .null => true
  | .boolean a, .boolean b => a = b
  | .integer a, .integer b => a = b
  | .long a, .long b => a = b
  | .number a, .number b => a.equals b
  | .date a, .date b => a.equals b
  | .string a, .string b => a = b
  | .object a, .object b => a = b
  | .transient a, .transient b => same a b
  | .persistent a, .persistent b => a.box = b.box
  | .type, .type => true
  | .marker, .marker => true
  | _, _ => false

theorem equals_comm {same : H → H → Bool} (h : ∀ a b, same a b = same b a) (v w : Value H) :
    v.equals same w = w.equals same v := by
  cases v <;> cases w <;>
    simp [equals, h, Double.equals_comm, Instant.equals_comm, eq_comm]

/-- The width does not change the number. -/
theorem toDouble_ofInteger (n : Int64) :
    (ofInteger n : Value H).toDouble? = some (Double.ofInt n.toInt) := by
  unfold ofInteger
  split
  · next h =>
    have hn : (Int32.ofInt n.toInt).toInt = n.toInt := by
      have hs : Int32.size = 2 ^ 32 := rfl
      rw [Int32.toInt_ofInt, hs]
      exact Int.bmod_eq_of_le (by omega) (by omega)
    simp only [toDouble?, hn]
  · rfl

/-- Minus zero is the integer zero, and 2 ^ 63 is beyond the integers. -/
example : (ofNumber (Double.zero true) : Value Unit) = .integer 0 ∧
    (ofNumber (Double.ofInt (2 ^ 63)) : Value Unit) = .number (Double.ofInt (2 ^ 63)) ∧
    (ofNumber (Double.ofInt (-2 ^ 63)) : Value Unit) = .long (-2 ^ 63) := by decide +kernel

end Value
end Interchange
