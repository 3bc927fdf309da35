/-
# The text of a value

A value has a text for readers, with a flag that tells content from a mere stand-in, and a text for
inspection that shows its kind.

The two halves of `render` are `text` and `hasContent`.  A number has its general notation and an
instant its `gmt` layout for a text, so an instant without a calendar date has content and an empty
text.  `inspect` is the debug text.  A persistent handle shows the count of its
box there, which the value does not know; the reader of the text brings it along.
-/
import Interchange.Decimal.General
import Interchange.Instant.Layout
import Interchange.Text.Quoted
import Interchange.Value.Basic

namespace Interchange
namespace Value

variable {H : Type}

def boolText : Bool → List Char
  | true => "true".toList
  | false => "false".toList

/-- The text of a value.  Objects and handles have none of their own. -/
def text : Value H → List Char
  | .undefined => "undefined".toList
  | .null | .type | .marker => "null".toList
  | .boolean b => boolText b
  | .integer n => Decimal.signed n.toInt
  | .long n => Decimal.signed n.toInt
  | .number x => x.general
  | .date x => x.text .gmt
  | .string s => s.toList
  | .object _ | .transient _ | .persistent _ => []

/-- Whether the text is content, and not a stand-in for something without a text. -/
def hasContent : Value H → Bool
  | .boolean _ | .integer _ | .long _ | .number _ | .date _ | .string _ => true
  | _ => false

def applied (name : String) (inside : List Char) : List Char :=
  name.toList ++ '(' :: (inside ++ [')'])

/-- The text of a persistent handle with its count of references. -/
def persistentText (references : Nat) : List Char :=
  "PersistentHandle \x7b refs: ".toList ++ Decimal.digits references ++ [' ', '\x7d']

/-- The text that shows the kind; `references` counts those of a persistent handle's box.  A
transient handle shows nothing of what it refers to. -/
def inspect (references : Nat → Nat) : Value H → List Char
  | .undefined => "Undefined".toList
  | .null => "Null".toList
  | .boolean b => applied "Boolean" (boolText b)
  | .integer n => applied "Integer" (Decimal.signed n.toInt)
  | .long n => applied "Long" (Decimal.signed n.toInt)
  | .number x => applied "Number" x.inspect
  | .date x => applied "Date" x.inspect
  | .string s => applied "String" (Quoted.write s.toList)
  | .object id => applied "Object" (Decimal.digits id.number)
  | .transient _ => applied "TransientHandle" "...".toList
  | .persistent p => applied "PersistentHandle" (persistentText (references p.box))
  | .type => "Type".toList
  | .marker => "PersistentMarker".toList

/-- What readers are told of a value. -/
structure Report where
  kind : Kind
  inspect : List Char
  text : List Char
  hasContent : Bool
  /-- The count of references, for a persistent handle. -/
  references : Option Nat

/-- The report on a value; `references` counts those of a persistent handle's box. -/
def report (references : Nat → Nat) (v : Value H) : Report where
  kind := v.kind
  inspect := v.inspect references
  text := v.text
  hasContent := v.hasContent
  references :=
    match v with
    | .persistent p => some (references p.box)
    | _ => none

/-- A number shows its kind, a date its calendar text. -/
example : (Value.number (Double.ofInt 1) : Value Unit).inspect (fun _ => 0) =
      "Number(1.0)".toList ∧
    (Value.date (Instant.ofMillis (Double.ofInt 0)) : Value Unit).text =
      "Thu, 01 Jan 1970 00:00:00 GMT".toList ∧
    (Value.persistent ⟨0, ()⟩ : Value Unit).inspect (fun _ => 2) =
      "PersistentHandle(PersistentHandle \x7b refs: 2 \x7d)".toList := by decide +kernel

end Value
end Interchange
