import XoChip.Json.Reader
import XoChip.Toml

/-!
# Characters, strings and keys of TOML

Readers return what they read and the characters that are left, or nothing if the text is not
well formed.
-/

namespace XoChip.Toml

/-- Spaces and tabs, the only blanks inside a line. -/
def isBlank (c : Char) : Bool := c == ' ' || c == '\t'

/-- What is left behind leading blanks. -/
def skipBlanks (cs : List Char) : List Char := cs.dropWhile isBlank

/-- Characters that may stand in comments and strings: all but control characters, of which the
    tab alone is allowed. -/
def isPlain (c : Char) : Bool := c == '\t' || (0x20 ≤ c.toNat && c.toNat != 0x7F)

/-- What is left behind the end of a line, before which blanks and a comment may stand. -/
def lineEnd? (cs : List Char) : Option (List Char) :=
  let cs := skipBlanks cs
  let cs :=
    match cs with
    | '#' :: rest => rest.dropWhile isPlain
    | cs => cs
  match cs with
  | [] => some []
  | '\n' :: rest => some rest
  | '\r' :: '\n' :: rest => some rest
  | _ => none

/-- What is left behind blanks, line ends and comments. -/
def skipLines (inComment : Bool) : List Char → Option (List Char)
  | [] => some []
  | '\n' :: rest => skipLines false rest
  | '\r' :: '\n' :: rest => skipLines false rest
  | c :: rest =>
    if inComment then if isPlain c then skipLines true rest else none
    else if isBlank c then skipLines false rest
    else if c = '#' then skipLines true rest
    else some (c :: rest)

/-! ## Strings -/

/-- The character with the given code point, if it is one. -/
def scalar? (n : Nat) : Option Char :=
  if h : n.isValidChar then some (Char.ofNatAux n h) else none

/-- The character that a backslash and the given letter stand for. -/
def shortEscape? : Char → Option Char
  | 'b' => some '\x08'
  | 't' => some '\t'
  | 'n' => some '\n'
  | 'f' => some '\x0c'
  | 'r' => some '\r'
  | '"' => some '"'
  | '\\' => some '\\'
  | _ => none

/-- The character that an escape stands for, from behind the backslash. -/
def escape? : List Char → Option (Char × List Char)
  | 'u' :: a :: b :: c :: d :: rest => do
    return (← scalar? (← Json.codeUnit? a b c d), rest)
  | 'U' :: a :: b :: c :: d :: e :: f :: g :: h :: rest => do
    return (← scalar? ((← Json.codeUnit? a b c d) * 0x10000 + (← Json.codeUnit? e f g h)), rest)
  | e :: rest => (shortEscape? e).map (·, rest)
  | [] => none

/-- What is left behind blanks and line ends. -/
def skipWhite : List Char → List Char
  | '\r' :: '\n' :: rest => skipWhite rest
  | c :: rest => if isBlank c || c = '\n' then skipWhite rest else c :: rest
  | [] => []

/-- A line end that is left out because of the backslash before it, and all white space behind
    it. -/
def joinedLines? (cs : List Char) : Option (List Char) :=
  match skipBlanks cs with
  | '\n' :: rest => some (skipWhite rest)
  | '\r' :: '\n' :: rest => some (skipWhite rest)
  | _ => none

/-- The closing quotes of a string: one, or three if it may span lines, and then up to two quotes
    that belong to the content may stand before them. Returns those and what is left. -/
def closing? (quote : Char) (lines : Bool) (cs : List Char) : Option (List Char × List Char) :=
  if lines then
    let count := min 5 (cs.takeWhile (· = quote)).length
    if 3 ≤ count then some (List.replicate (count - 3) quote, cs.drop count) else none
  else
    match cs with
    | c :: rest => if c = quote then some ([], rest) else none
    | [] => none

/-- The content of a string, from behind its opening quotes. Only double quotes give backslashes
    a meaning. -/
def quoted? (quote : Char) (lines : Bool) : Nat → List Char → Option (List Char × List Char)
  | 0, _ => none
  | fuel + 1, cs =>
    match closing? quote lines cs with
    | some result => some result
    | none =>
      match cs with
      | [] => none
      | '\r' :: '\n' :: rest => if lines then more fuel '\n' rest else none
      | '\n' :: rest => if lines then more fuel '\n' rest else none
      | '\\' :: rest =>
        if quote = '"' then
          match if lines then joinedLines? rest else none with
          | some rest => quoted? quote lines fuel rest
          | none => (escape? rest).bind fun (c, rest) => more fuel c rest
        else more fuel '\\' rest
      | c :: rest => if isPlain c then more fuel c rest else none
where
  /-- A character of the content, and the content behind it. -/
  more (fuel : Nat) (c : Char) (rest : List Char) : Option (List Char × List Char) :=
    (quoted? quote lines fuel rest).map fun (content, rest) => (c :: content, rest)

/-- What is left behind a line end, if the text starts with one. -/
def skipLineEnd : List Char → List Char
  | '\n' :: rest => rest
  | '\r' :: '\n' :: rest => rest
  | cs => cs

/-- A string in any of the four notations. -/
def string? (cs : List Char) : Option (List Char × List Char) :=
  match cs with
  | '"' :: '"' :: '"' :: rest => quoted? '"' true cs.length (skipLineEnd rest)
  | '\'' :: '\'' :: '\'' :: rest => quoted? '\'' true cs.length (skipLineEnd rest)
  | '"' :: rest => quoted? '"' false cs.length rest
  | '\'' :: rest => quoted? '\'' false cs.length rest
  | _ => none

/-! ## Keys -/

/-- The characters of a key without quotes: letters and digits of ASCII, `-` and `_`. -/
def isBare (c : Char) : Bool := c.isAlphanum || c == '-' || c == '_'

/-- A single key, bare or in quotes. -/
def simpleKey? (cs : List Char) : Option (Key × List Char) :=
  match cs with
  | '"' :: rest => quoted? '"' false cs.length rest
  | '\'' :: rest => quoted? '\'' false cs.length rest
  | cs =>
    match cs.span isBare with
    | ([], _) => none
    | (key, rest) => some (key, rest)

/-- How many keys a path may have. -/
def maxKeys : Nat := 79

/-- At most the given number of keys with points between them, and the blanks around them. -/
def keys? : Nat → List Char → Option (List Key × List Char)
  | 0, _ => none
  | count + 1, cs => do
    let (key, rest) ← simpleKey? (skipBlanks cs)
    match skipBlanks rest with
    | '.' :: rest => do
      let (keys, rest) ← keys? count rest
      return (key :: keys, rest)
    | rest => return ([key], rest)

/-- The keys on the left of an assignment or in a header. -/
def path? (cs : List Char) : Option (List Key × List Char) := keys? maxKeys cs

end XoChip.Toml
