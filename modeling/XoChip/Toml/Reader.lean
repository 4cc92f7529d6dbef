import XoChip.Toml.Number
import XoChip.Toml.Text

/-!
# Reading TOML

A text is a sequence of lines: assignments and headers of tables. `parse?` reads them one after
the other and gives the table that they build up, or nothing if a line is not well formed or
contradicts an earlier one.
-/

namespace XoChip.Toml

/-- How deep arrays and inline tables may nest. -/
def maxNesting : Nat := 79

mutual

/-- A value, inside which arrays and tables may nest to the given depth. -/
def value? : Nat → Nat → List Char → Option (Toml × List Char)
  | 0, _, _ => none
  | fuel + 1, depth, cs =>
    match cs with
    | [] => none
    | '[' :: rest =>
      match depth with
      | 0 => none
      | depth + 1 => elements? fuel depth rest []
    | '\x7b' :: rest =>
      match depth with
      | 0 => none
      | depth + 1 =>
        match skipBlanks rest with
        | '\x7d' :: rest => some (.table .inlined [], rest)
        | rest => pairs? fuel depth rest []
    | 't' :: 'r' :: 'u' :: 'e' :: rest => some (.boolean true, rest)
    | 'f' :: 'a' :: 'l' :: 's' :: 'e' :: rest => some (.boolean false, rest)
    | c :: rest =>
      if c = '"' ∨ c = '\'' then
        (string? (c :: rest)).map fun (content, rest) => (.string content, rest)
      else
        match dateTime? (c :: rest) with
        | some result => some result
        | none => number? (c :: rest)

/-- The elements of an array up to its closing bracket, on any number of lines. A comma may
    follow the last one. -/
def elements? : Nat → Nat → List Char → List Toml → Option (Toml × List Char)
  | 0, _, _, _ => none
  | fuel + 1, depth, cs, done =>
    match skipLines false cs with
    | none => none
    | some (']' :: rest) => some (.array done.reverse, rest)
    | some cs =>
      match value? fuel depth cs with
      | none => none
      | some (value, rest) =>
        match skipLines false rest with
        | some (',' :: rest) => elements? fuel depth rest (value :: done)
        | some (']' :: rest) => some (.array (value :: done).reverse, rest)
        | _ => none

/-- The assignments of an inline table up to its closing brace, on one line. -/
def pairs? : Nat → Nat → List Char → Entries → Option (Toml × List Char)
  | 0, _, _, _ => none
  | fuel + 1, depth, cs, done =>
    match path? cs with
    | some (keys, '=' :: rest) =>
      match value? fuel depth (skipBlanks rest) with
      | none => none
      | some (value, rest) =>
        match Entries.assign value true keys done with
        | none => none
        | some done =>
          match skipBlanks rest with
          | ',' :: rest => pairs? fuel depth rest done
          | '\x7d' :: rest => some (.table .inlined done, rest)
          | _ => none
    | _ => none

end

/-- What a text has built up: the outermost table and the path of the table that assignments go
    to. -/
structure Draft where
  root : Entries := []
  current : List Key := []

/-- The assignment of a line. -/
def assignment? (d : Draft) (cs : List Char) : Option (Draft × List Char) := do
  match ← path? cs with
  | (keys, '=' :: rest) =>
    let (value, rest) ← value? (rest.length + 1) maxNesting (skipBlanks rest)
    let root ← Entries.modifyAt (Entries.assign value true keys) d.current d.root
    return ({ d with root }, ← lineEnd? rest)
  | _ => none

/-- The header of a line, from behind its opening bracket. Two brackets are the header of an
    element of an array of tables. -/
def header? (d : Draft) (cs : List Char) : Option (Draft × List Char) :=
  match cs with
  | '[' :: cs => do
    match ← path? cs with
    | (keys, ']' :: ']' :: rest) =>
      return ({ root := ← Entries.openElement keys d.root, current := keys }, ← lineEnd? rest)
    | _ => none
  | cs => do
    match ← path? cs with
    | (keys, ']' :: rest) =>
      return ({ root := ← Entries.openTable keys d.root, current := keys }, ← lineEnd? rest)
    | _ => none

/-- Read line after line. Every line takes at least one character. -/
def lines? : Nat → Draft → List Char → Option Draft
  | 0, _, _ => none
  | fuel + 1, d, cs =>
    match skipBlanks cs with
    | [] => some d
    | '[' :: rest => (header? d rest).bind fun (d, rest) => lines? fuel d rest
    | c :: rest =>
      if c = '\n' ∨ c = '\r' ∨ c = '#' then
        (lineEnd? (c :: rest)).bind fun rest => lines? fuel d rest
      else (assignment? d (c :: rest)).bind fun (d, rest) => lines? fuel d rest

/-- The outermost table of a text. A byte order mark at its start does not count. -/
def parse? (cs : List Char) : Option Entries :=
  let cs :=
    match cs with
    | '\ufeff' :: rest => rest
    | cs => cs
  (lines? (cs.length + 1) {} cs).map Draft.root

end XoChip.Toml
