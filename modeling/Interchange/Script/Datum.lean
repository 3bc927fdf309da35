/-
# Data of the script side

A datum is an atom, or a reference to an object or a function that others may refer to as well.
Atoms are compared by what they hold, objects and functions by identity.  A boxed primitive is an
atom too: nothing can be stored in it.

A datum is a script value.  `typeName` is `type_of`, `facets` are the questions that a runtime value
answers, `inspect` is the debug text.  What an object or a function holds is not in the datum but in
a cell of the store; `Heap` has the operations that need it, from `native_id` to `call`.

A function is any native closure there, and here a name and one of a closed list of bodies, `Body`.
A body reads its arguments and nothing else: values that a closure captures are not modelled, so no
function of a session holds a reference, and what is proved of counts is proved of such functions.

* `equals_comm`: equality is symmetric, though a not-a-number does not equal itself.
-/
import Interchange.Value.Exchange
import Interchange.Value.Text

namespace Interchange.Script

/-- The identity of an object or a function: the place of its cell, which is never used again. -/
abbrev Ref := Nat

/-- A datum without an identity. -/
inductive Atom where
  /-- A handle that refers to nothing. -/
  | empty
  | undefined
  | null
  | boolean (b : Bool)
  | number (x : Double)
  | string (s : String)
  /-- A date by its milliseconds since the epoch; invalid at a not-a-number. -/
  | date (ms : Double)
  | booleanObject (b : Bool)
  | numberObject (x : Double)
  | stringObject (s : String)
  deriving DecidableEq

/-- What a script works on.  Copying a datum copies the reference and not the object. -/
inductive Datum where
  | atom (a : Atom)
  | object (ref : Ref)
  | function (ref : Ref)
  deriving DecidableEq

/-! ## 1. Atoms -/

namespace Atom

instance : Inhabited Atom := ⟨.undefined⟩

/-- The name of an atom's type, as `typeof` gives it: null, dates and boxed primitives are of type
"object". -/
def typeName : Atom → String
  | .empty | .undefined => "undefined"
  | .boolean _ => "boolean"
  | .number _ => "number"
  | .string _ => "string"
  | .null | .date _ | .booleanObject _ | .numberObject _ | .stringObject _ => "object"

/-- What native code can ask of an atom.  Exactly one question is affirmed, and the contents that it
does not have are false, a not-a-number and the empty text. -/
def facets : Atom → Facets
  | .empty => { Facets.unrecognised with isEmpty := true }
  | .undefined => { Facets.unrecognised with isUndefined := true }
  | .null => { Facets.unrecognised with isNull := true }
  | .boolean b => { Facets.unrecognised with isBoolean := true, boolean := b }
  | .number x => { Facets.unrecognised with isNumber := true, number := x }
  | .string s => { Facets.unrecognised with isString := true, string := s }
  | .date ms => { Facets.unrecognised with isDate := true, number := ms }
  | .booleanObject b => { Facets.unrecognised with isBooleanWrapper := true, boolean := b }
  | .numberObject x => { Facets.unrecognised with isNumberWrapper := true, number := x }
  | .stringObject s => { Facets.unrecognised with isStringWrapper := true, string := s }

/-- Equality by what is held; a not-a-number equals nothing. -/
def equals : Atom → Atom → Bool
  | .empty, .empty => true
  | .undefined, .undefined => true
  | .null, .null => true
  | .boolean a, .boolean b => a = b
  | .number a, .number b => a.equals b
  | .string a, .string b => a = b
  | .date a, .date b => a.equals b
  | .booleanObject a, .booleanObject b => a = b
  | .numberObject a, .numberObject b => a.equals b
  | .stringObject a, .stringObject b => a = b
  | _, _ => false

def inspect : Atom → List Char
  | .empty => "<empty>".toList
  | .undefined => "undefined".toList
  | .null => "null".toList
  | .boolean b => Value.boolText b
  | .number x => x.plain
  | .string s => Quoted.write s.toList
  | .date ms => Value.applied "Date" ms.plain
  | .booleanObject b => Value.applied "Boolean" (Value.boolText b)
  | .numberObject x => Value.applied "Number" x.plain
  | .stringObject s => Value.applied "String" (Quoted.write s.toList)

theorem equals_comm (a b : Atom) : a.equals b = b.equals a := by
  cases a <;> cases b <;> simp [equals, Double.equals_comm, eq_comm]

end Atom

/-! ## 2. Data -/

namespace Datum

instance : Inhabited Datum := ⟨.atom .undefined⟩

/-- The references that a datum holds: one, if it is an object or a function. -/
def refs : Datum → List Ref
  | .atom _ => []
  | .object r | .function r => [r]

def typeName : Datum → String
  | .atom a => a.typeName
  | .object _ => "object"
  | .function _ => "function"

def facets : Datum → Facets
  | .atom a => a.facets
  | .object _ | .function _ => .unrecognised

/-- Strict equality: of atoms by what they hold, of objects and functions by identity. -/
def equals : Datum → Datum → Bool
  | .atom a, .atom b => a.equals b
  | .object r, .object s => r = s
  | .function r, .function s => r = s
  | _, _ => false

theorem equals_comm (d e : Datum) : d.equals e = e.equals d := by
  cases d <;> cases e <;> simp [equals, Atom.equals_comm, eq_comm]

end Datum

/-! ## 3. Functions -/

/-- What calling a function computes, from its arguments alone. -/
inductive Body where
  /-- Nothing. -/
  | noop
  /-- Its first argument. -/
  | first
  /-- The number of arguments. -/
  | argc
  /-- The sum of the numbers inside the arguments, from the left. -/
  | sum
  /-- The name of the first argument's type. -/
  | typeof
  /-- The texts inside the arguments, joined. -/
  | join
  deriving DecidableEq

/-- The result of a call.  The only one that can hold a reference is that of `first`, and its
argument holds it too. -/
def Body.apply (arguments : List Datum) : Body → Datum
  | .noop => default
  | .first => arguments.headD default
  | .argc => .atom (.number (Double.ofInt arguments.length))
  | .sum => .atom (.number (arguments.foldl (fun x d => x + d.facets.number) (Double.zero false)))
  | .typeof => .atom (.string ((arguments.head?.map Datum.typeName).getD "none"))
  | .join => .atom (.string (String.join (arguments.map (·.facets.string))))

/-- An invalid date does not equal itself; a sum meets a text; a call without arguments. -/
example : (Datum.atom (.date Double.quietNaN)).equals (.atom (.date Double.quietNaN)) = false ∧
    Body.sum.apply [.atom (.number (Double.ofInt 1)), .atom (.string "2")] =
      .atom (.number Double.quietNaN) ∧
    Body.typeof.apply [] = .atom (.string "none") := by decide +kernel

end Interchange.Script
