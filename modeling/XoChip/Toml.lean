/-!
# TOML values

What a TOML text says. Tables remember how they came about, because that decides whether later
lines may add to them.
-/

namespace XoChip

/-- How a table came about. -/
inductive Toml.Origin
  /-- By a header of its own. -/
  | header
  /-- As a part of another table's header. -/
  | implied
  /-- As a part of a dotted key. -/
  | dotted
  /-- Between braces. -/
  | inlined
  deriving DecidableEq, Repr

/-- A TOML value. Floats, dates and times keep their literals. -/
inductive Toml
  | string (content : List Char)
  | integer (value : Int)
  | float (literal : List Char)
  | boolean (value : Bool)
  | dateTime (literal : List Char)
  | array (elements : List Toml)
  | table (origin : Toml.Origin) (entries : List (List Char × Toml))
  /-- An array whose elements are tables with headers of their own. -/
  | tables (elements : List (List (List Char × Toml)))

namespace Toml

/-- The name of an entry. -/
abbrev Key := List Char

/-- The content of a table. No key occurs twice. -/
abbrev Entries := List (Key × Toml)

namespace Entries

def get? (es : Entries) (k : Key) : Option Toml := (es.find? (·.1 = k)).map (·.2)

def set (es : Entries) (k : Key) (value : Toml) : Entries :=
  if es.any (·.1 = k) then es.map fun e => if e.1 = k then (k, value) else e
  else es ++ [(k, value)]

/-- Apply a change to the table at a path that leads through tables; at an array of tables it
    leads to the last one. -/
def modifyAt (change : Entries → Option Entries) : List Key → Entries → Option Entries
  | [], es => change es
  | k :: ks, es =>
    match es.get? k with
    | some (.table origin inner) => do
      return es.set k (.table origin (← modifyAt change ks inner))
    | some (.tables elements) => do
      let inner ← modifyAt change ks (← elements.getLast?)
      return es.set k (.tables (elements.dropLast ++ [inner]))
    | _ => none

/-- Give a value to a dotted key. The tables on its way are made as needed; they may not have
    headers of their own, and the last of them has to be one made by dotted keys. A key may get
    a value once. `isOpen` tells whether the innermost table may get one. -/
def assign (value : Toml) (isOpen : Bool) : List Key → Entries → Option Entries
  | [], _ => none
  | [k], es => if isOpen && (es.get? k).isNone then some (es.set k value) else none
  | k :: ks, es =>
    match es.get? k with
    | none => do return es.set k (.table .dotted (← assign value true ks []))
    | some (.table .dotted inner) => do
      return es.set k (.table .dotted (← assign value true ks inner))
    | some (.table .implied inner) => do
      return es.set k (.table .implied (← assign value false ks inner))
    | some (.tables elements) => do
      let inner ← assign value false ks (← elements.getLast?)
      return es.set k (.tables (elements.dropLast ++ [inner]))
    | _ => none

/-- Lead a header's path through tables, making those that are missing, and apply a change to the
    last key. -/
def descend (change : Key → Entries → Option Entries) : List Key → Entries → Option Entries
  | [], _ => none
  | [k], es => change k es
  | k :: ks, es =>
    match es.get? k with
    | none => do return es.set k (.table .implied (← descend change ks []))
    | some (.table .inlined _) => none
    | some (.table origin inner) => do
      return es.set k (.table origin (← descend change ks inner))
    | some (.tables elements) => do
      let inner ← descend change ks (← elements.getLast?)
      return es.set k (.tables (elements.dropLast ++ [inner]))
    | _ => none

/-- Open a table by its header: a new one, or one that other headers have implied. -/
def openTable : List Key → Entries → Option Entries :=
  descend fun k es =>
    match es.get? k with
    | none => some (es.set k (.table .header []))
    | some (.table .implied inner) => some (es.set k (.table .header inner))
    | _ => none

/-- Append a table to an array of tables by its header. -/
def openElement : List Key → Entries → Option Entries :=
  descend fun k es =>
    match es.get? k with
    | none => some (es.set k (.tables [[]]))
    | some (.tables elements) => some (es.set k (.tables (elements ++ [[]])))
    | _ => none

end Entries

end Toml

end XoChip
