/-!
# JSON values

A value of `Json` is what a JSON text says, as far as the formats of this library look at it. A
number is `natural` when it is written with digits alone; any other number keeps its literal.
The content of a string is absent when its escapes leave a surrogate without its partner: such
a literal is well formed but names no text.
-/

namespace XoChip

/-- A JSON value. Objects keep their fields in order, repetitions included. -/
inductive Json
  | null
  | bool (value : Bool)
  | natural (value : Nat)
  | number (literal : List Char)
  | string (content : Option (List Char))
  | array (elements : List Json)
  | object (fields : List (Option (List Char) × Json))

namespace Json

/-- An object whose field names are given as plain text. -/
def record (fields : List (String × Json)) : Json :=
  .object (fields.map fun (name, value) => (some name.toList, value))

/-- An array of natural numbers. -/
def naturals (ns : List Nat) : Json := .array (ns.map .natural)

/-! ## Reading values as types -/

def toBool? : Json → Option Bool
  | .bool b => some b
  | _ => none

/-- The number, if it is a natural number below `bound`. -/
def toNatBelow? (bound : Nat) : Json → Option Nat
  | .natural n => if n < bound then some n else none
  | _ => none

def toUInt8? (j : Json) : Option UInt8 := (j.toNatBelow? UInt8.size).map UInt8.ofNat

def toUInt16? (j : Json) : Option UInt16 := (j.toNatBelow? UInt16.size).map UInt16.ofNat

def toUInt32? (j : Json) : Option UInt32 := (j.toNatBelow? UInt32.size).map UInt32.ofNat

def toUInt64? (j : Json) : Option UInt64 := (j.toNatBelow? UInt64.size).map UInt64.ofNat

/-- The elements of an array, each read by `read`. -/
def toListOf? {α : Type} (read : Json → Option α) : Json → Option (List α)
  | .array elements => elements.mapM read
  | _ => none

/-- The value of the one field called `name`, if there is one; the reading fails when the name is
    repeated. -/
def field? (fields : List (List Char × Json)) (name : List Char) : Option (Option Json) :=
  match fields.filter (·.1 = name) with
  | [] => some none
  | [(_, value)] => some (some value)
  | _ => none

/-- The values of a record's fields in the order of `names`, `none` for a missing one. The record
    is either an object, where unknown fields are passed over and known ones may stand once, or an
    array of the values in order, which may be cut short. -/
def toRecord? (names : List String) : Json → Option (List (Option Json))
  | .object fields => do
    let fields ← fields.mapM fun (name, value) => name.map (·, value)
    names.mapM fun name => field? fields name.toList
  | .array elements =>
    if elements.length ≤ names.length then
      some (elements.map some ++ List.replicate (names.length - elements.length) none)
    else none
  | _ => none

end Json

end XoChip
