import XoChip.Dialect
import XoChip.Error
import XoChip.Text.Blank

/-!
# Dialects as text

A dialect is written as `Name:bool` entries separated by commas, one for each toggle. When such
a text is read, white space around entries, names and values does not count, nor do empty
entries; a toggle that is not named stays off and of two entries for one toggle the later wins.
-/

namespace XoChip.Dialect

/-- The text of a dialect, which names every toggle. -/
def text (d : Dialect) : String :=
  String.intercalate "," (Toggle.all.map fun t => t.name ++ ":" ++ toString (d.get t))

/-- The entries of a text: what stands between commas, trimmed and not empty. -/
def entries (s : List Char) : List (List Char) :=
  ((Text.splitAt ',' s).map Text.trim).filter fun entry => !entry.isEmpty

def truth? (s : List Char) : Option Bool :=
  if s = "true".toList then some true
  else if s = "false".toList then some false
  else none

/-- Read one entry. The value is looked at before the name. -/
def readEntry (entry : List Char) : Except Error (Toggle × Bool) :=
  match Text.splitOnce ':' entry with
  | none => .error (.malformedEntry (String.ofList entry))
  | some (name, value) =>
    match truth? (Text.trim value) with
    | none => .error (.malformedEntry (String.ofList entry))
    | some on =>
      let name := String.ofList (Text.trim name)
      match Toggle.ofName? name with
      | none => .error (.unknownToggle name)
      | some t => .ok (t, on)

/-- Read entries from left to right into a dialect, up to the first that cannot be read. -/
def readEntries (d : Dialect) : List (List Char) → Except Error Dialect
  | [] => .ok d
  | entry :: rest =>
    match readEntry entry with
    | .error e => .error e
    | .ok (t, on) => readEntries (d.set t on) rest

def parse (s : String) : Except Error Dialect := readEntries {} (entries s.toList)

end XoChip.Dialect
