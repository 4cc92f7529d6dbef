import XoChip.Json

/-!
# Reading JSON text

Each reader takes the characters that are left and returns what it read together with the rest,
or nothing if the text is not well formed. `parse?` reads a whole text: one value with nothing
but blanks around it.
-/

namespace XoChip.Json

/-- The blanks that JSON allows between tokens. -/
def isBlank (c : Char) : Bool := c == ' ' || c == '\t' || c == '\n' || c == '\r'

/-- What is left behind leading blanks. -/
def skipBlanks (cs : List Char) : List Char := cs.dropWhile isBlank

/-- The rest of the text behind the word, if the text starts with it. -/
def keyword? : List Char → List Char → Option (List Char)
  | [], cs => some cs
  | k :: ks, c :: cs => if k = c then keyword? ks cs else none
  | _ :: _, [] => none

/-! ## Numbers -/

/-- The value of decimal digits. -/
def digitsValue (ds : List Char) : Nat :=
  ds.foldl (fun n d => 10 * n + (d.toNat - '0'.toNat)) 0

/-- The whole part of a number: a zero alone, or digits that start with none. -/
def wholePart? : List Char → Option (List Char × List Char)
  | '0' :: cs => some (['0'], cs)
  | cs =>
    match cs.span Char.isDigit with
    | ([], _) => none
    | (ds, rest) => some (ds, rest)

/-- The digits behind a point, if the text starts with one; at least one digit follows it. -/
def fractionPart? : List Char → Option (List Char × List Char)
  | '.' :: cs =>
    match cs.span Char.isDigit with
    | ([], _) => none
    | (ds, rest) => some ('.' :: ds, rest)
  | cs => some ([], cs)

/-- The exponent, if the text starts with one; at least one digit follows its mark and sign. -/
def exponentPart? : List Char → Option (List Char × List Char)
  | c :: cs =>
    if c = 'e' || c = 'E' then
      let (sign, cs) :=
        match cs with
        | '+' :: rest => (['+'], rest)
        | '-' :: rest => (['-'], rest)
        | rest => ([], rest)
      match cs.span Char.isDigit with
      | ([], _) => none
      | (ds, rest) => some (c :: sign ++ ds, rest)
    else some ([], c :: cs)
  | [] => some ([], [])

/-- A number. It is natural unless it has a sign, a fraction or an exponent. -/
def readNumber? (cs : List Char) : Option (Json × List Char) := do
  let (sign, cs) :=
    match cs with
    | '-' :: rest => (['-'], rest)
    | rest => ([], rest)
  let (whole, cs) ← wholePart? cs
  let (fraction, cs) ← fractionPart? cs
  let (exponent, cs) ← exponentPart? cs
  match sign, fraction, exponent with
  | [], [], [] => some (.natural (digitsValue whole), cs)
  | _, _, _ => some (.number (sign ++ whole ++ fraction ++ exponent), cs)

/-! ## Strings -/

/-- The value of a hexadecimal digit of either case. -/
def hexValue? (c : Char) : Option Nat :=
  if '0' ≤ c ∧ c ≤ '9' then some (c.toNat - '0'.toNat)
  else if 'a' ≤ c ∧ c ≤ 'f' then some (c.toNat - 'a'.toNat + 10)
  else if 'A' ≤ c ∧ c ≤ 'F' then some (c.toNat - 'A'.toNat + 10)
  else none

/-- The code unit that four hexadecimal digits name. -/
def codeUnit? (a b c d : Char) : Option Nat := do
  return (((← hexValue? a) * 16 + (← hexValue? b)) * 16 + (← hexValue? c)) * 16 + (← hexValue? d)

/-- The character that a backslash and the given letter stand for. -/
def shortEscape? : Char → Option Char
  | '"' => some '"'
  | '\\' => some '\\'
  | '/' => some '/'
  | 'b' => some '\x08'
  | 'f' => some '\x0c'
  | 'n' => some '\n'
  | 'r' => some '\r'
  | 't' => some '\t'
  | _ => none

/-- The code points and code units of a string literal, read from behind its opening quote to
    its closing one. Only an escape yields a surrogate. -/
def literal? : List Char → Option (List Nat × List Char)
  | '"' :: cs => some ([], cs)
  | '\\' :: 'u' :: a :: b :: c :: d :: cs => do
    let unit ← codeUnit? a b c d
    let (units, rest) ← literal? cs
    return (unit :: units, rest)
  | '\\' :: e :: cs => do
    let c ← shortEscape? e
    let (units, rest) ← literal? cs
    return (c.toNat :: units, rest)
  | c :: cs =>
    if c = '\\' ∨ c.toNat < 0x20 then none
    else do
      let (units, rest) ← literal? cs
      return (c.toNat :: units, rest)
  | [] => none

/-- Whether a code unit is the first or the second half of a surrogate pair. -/
def isHighSurrogate (u : Nat) : Bool := 0xD800 ≤ u && u ≤ 0xDBFF

@[inherit_doc isHighSurrogate]
def isLowSurrogate (u : Nat) : Bool := 0xDC00 ≤ u && u ≤ 0xDFFF

/-- The text of code points and code units, none if a surrogate lacks its partner. -/
def joinSurrogates? : List Nat → Option (List Char)
  | [] => some []
  | u :: us =>
    if isHighSurrogate u then
      match us with
      | v :: vs =>
        if isLowSurrogate v then
          (joinSurrogates? vs).map
            (Char.ofNat (0x10000 + (u - 0xD800) * 0x400 + (v - 0xDC00)) :: ·)
        else none
      | [] => none
    else if isLowSurrogate u then none
    else (joinSurrogates? us).map (Char.ofNat u :: ·)

/-- The content of a string, read from behind its opening quote. -/
def readString? (cs : List Char) : Option (Option (List Char) × List Char) :=
  (literal? cs).map fun (units, rest) => (joinSurrogates? units, rest)

/-! ## Values -/

mutual

/-- A value, which starts at the first character. -/
def readValue? : Nat → List Char → Option (Json × List Char)
  | 0, _ => none
  | fuel + 1, cs =>
    match cs with
    | [] => none
    | '"' :: rest => (readString? rest).map fun (content, rest) => (.string content, rest)
    | '[' :: rest =>
      match skipBlanks rest with
      | ']' :: rest => some (.array [], rest)
      | rest => readElements? fuel rest []
    | '\x7b' :: rest =>
      match skipBlanks rest with
      | '\x7d' :: rest => some (.object [], rest)
      | rest => readFields? fuel rest []
    | 'n' :: rest => (keyword? "ull".toList rest).map (.null, ·)
    | 't' :: rest => (keyword? "rue".toList rest).map (.bool true, ·)
    | 'f' :: rest => (keyword? "alse".toList rest).map (.bool false, ·)
    | cs => readNumber? cs

/-- The elements of an array up to its closing bracket; `done` holds those before, last first. -/
def readElements? : Nat → List Char → List Json → Option (Json × List Char)
  | 0, _, _ => none
  | fuel + 1, cs, done =>
    match readValue? fuel cs with
    | none => none
    | some (value, rest) =>
      match skipBlanks rest with
      | ',' :: rest => readElements? fuel (skipBlanks rest) (value :: done)
      | ']' :: rest => some (.array (value :: done).reverse, rest)
      | _ => none

/-- The fields of an object up to its closing brace; `done` holds those before, last first. -/
def readFields? : Nat → List Char → List (Option (List Char) × Json) → Option (Json × List Char)
  | 0, _, _ => none
  | fuel + 1, cs, done =>
    match cs with
    | '"' :: rest =>
      match readString? rest with
      | none => none
      | some (name, rest) =>
        match skipBlanks rest with
        | ':' :: rest =>
          match readValue? fuel (skipBlanks rest) with
          | none => none
          | some (value, rest) =>
            match skipBlanks rest with
            | ',' :: rest => readFields? fuel (skipBlanks rest) ((name, value) :: done)
            | '\x7d' :: rest => some (.object ((name, value) :: done).reverse, rest)
            | _ => none
        | _ => none
    | _ => none

end

/-- The value of a whole text. Every nested reading consumes a character first, so the text's
    length bounds the depth. -/
def parse? (cs : List Char) : Option Json :=
  match readValue? (cs.length + 1) (skipBlanks cs) with
  | none => none
  | some (value, rest) => if (skipBlanks rest).isEmpty then some value else none

end XoChip.Json
