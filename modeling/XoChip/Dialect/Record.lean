import XoChip.Dialect
import XoChip.Json.Reader
import XoChip.Json.Printer

/-!
# Dialects as JSON

A dialect is a record with one truth value per toggle, under the toggles' keys. When a record is
read, missing toggles are off.
-/

namespace XoChip.Dialect

def toJson (d : Dialect) : Json :=
  .record (Toggle.all.map fun t => (t.key, .bool (d.get t)))

def ofJson? (j : Json) : Option Dialect := do
  let values ← j.toRecord? (Toggle.all.map Toggle.key)
  (Toggle.all.zip values).foldlM (fun d (t, value) =>
    match value with
    | none => some d
    | some value => value.toBool?.map (d.set t)) {}

def toJsonText (d : Dialect) : String := String.ofList d.toJson.print

def ofJsonText? (s : String) : Option Dialect := (Json.parse? s.toList).bind ofJson?

end XoChip.Dialect
