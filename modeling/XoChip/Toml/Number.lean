import XoChip.Toml

/-!
# Numbers, dates and times of TOML

Underscores may stand between the digits of a number. Integers are decimal, or hexadecimal, octal
or binary behind a mark, and have to fit in 64 bits with a sign. Dates and times are checked
against the calendar, leap years included, and against the clock, leap seconds included.
-/

namespace XoChip.Toml

/-! ## Digits -/

/-- Digits, and underscores between them, of which only the digits are returned. -/
def moreDigits (isDigit : Char → Bool) : List Char → List Char × List Char
  | '_' :: c :: cs =>
    if isDigit c then
      let (ds, rest) := moreDigits isDigit cs
      (c :: ds, rest)
    else ([], '_' :: c :: cs)
  | c :: cs =>
    if isDigit c then
      let (ds, rest) := moreDigits isDigit cs
      (c :: ds, rest)
    else ([], c :: cs)
  | [] => ([], [])

/-- At least one digit, then more of them. -/
def digits? (isDigit : Char → Bool) : List Char → Option (List Char × List Char)
  | c :: cs =>
    if isDigit c then
      let (ds, rest) := moreDigits isDigit cs
      some (c :: ds, rest)
    else none
  | [] => none

/-- The value of a digit of any base up to sixteen. -/
def digitValue (c : Char) : Nat :=
  if c.isDigit then c.toNat - '0'.toNat else c.toLower.toNat - 'a'.toNat + 10

def valueOf (base : Nat) (ds : List Char) : Nat := ds.foldl (fun n d => base * n + digitValue d) 0

/-- An integer, if it fits in 64 bits with a sign. -/
def integer? (value : Int) (rest : List Char) : Option (Toml × List Char) :=
  if -0x8000000000000000 ≤ value ∧ value < 0x8000000000000000 then some (.integer value, rest) else none

/-! ## Numbers -/

/-- An integer behind the mark of its base. -/
def marked? (base : Nat) (isDigit : Char → Bool) (cs : List Char) : Option (Toml × List Char) := do
  let (ds, rest) ← digits? isDigit cs
  integer? (valueOf base ds) rest

/-- The whole part of a decimal number: a zero alone, or digits that start with none. -/
def wholePart? : List Char → Option (List Char × List Char)
  | '0' :: rest => some (['0'], rest)
  | cs => digits? Char.isDigit cs

/-- The point and the fraction, if the text starts with a point. -/
def fractionPart? : List Char → Option (List Char × List Char)
  | '.' :: cs => (digits? Char.isDigit cs).map fun (ds, rest) => ('.' :: ds, rest)
  | cs => some ([], cs)

/-- The exponent, if the text starts with its mark. -/
def exponentPart? : List Char → Option (List Char × List Char)
  | c :: cs =>
    if c = 'e' || c = 'E' then
      let (sign, cs) :=
        match cs with
        | '+' :: rest => (['+'], rest)
        | '-' :: rest => (['-'], rest)
        | rest => ([], rest)
      (digits? Char.isDigit cs).map fun (ds, rest) => (c :: sign ++ ds, rest)
    else some ([], c :: cs)
  | [] => some ([], [])

/-- The value of an exponent with its mark, zero if there is none. -/
def exponentValue : List Char → Int
  | [] => 0
  | _ :: '-' :: ds => -(valueOf 10 ds : Int)
  | _ :: '+' :: ds => valueOf 10 ds
  | _ :: ds => valueOf 10 ds

/-- Whether `mantissa * 10 ^ exponent` rounds to no double but to infinity, that is, reaches the
    middle between the largest double and `2 ^ 1024`. Only a number of 309 digits before the point
    needs a comparison; a shorter one is small enough and a longer one is too large. -/
def exceedsDouble (mantissa : Nat) (exponent : Int) : Bool :=
  let size : Int := (Nat.toDigits 10 mantissa).length + exponent
  if mantissa = 0 ∨ size < 309 then false
  else if 309 < size then true
  else (Nat.pow 2 54 - 1) * Nat.pow 2 970 * Nat.pow 10 (-exponent).toNat ≤
    mantissa * Nat.pow 10 exponent.toNat

/-- A decimal number behind its sign. A float beyond the doubles is refused, unless it is
    negative. -/
def decimal? (sign : List Char) (cs : List Char) : Option (Toml × List Char) := do
  let (whole, rest) ← wholePart? cs
  let (fraction, rest) ← fractionPart? rest
  let (exponent, rest) ← exponentPart? rest
  match fraction, exponent with
  | [], [] =>
    let magnitude : Int := valueOf 10 whole
    integer? (if sign = ['-'] then -magnitude else magnitude) rest
  | _, _ =>
    let places := fraction.drop 1
    let mantissa := valueOf 10 (whole ++ places)
    if sign ≠ ['-'] ∧ exceedsDouble mantissa (exponentValue exponent - places.length) then none
    else return (.float (sign ++ whole ++ fraction ++ exponent), rest)

/-- A number behind its sign, which may also be infinite or none at all. -/
def signed? (sign : List Char) : List Char → Option (Toml × List Char)
  | 'i' :: 'n' :: 'f' :: rest => some (.float (sign ++ ['i', 'n', 'f']), rest)
  | 'n' :: 'a' :: 'n' :: rest => some (.float (sign ++ ['n', 'a', 'n']), rest)
  | cs => decimal? sign cs

/-- A number. -/
def number? : List Char → Option (Toml × List Char)
  | '0' :: 'x' :: cs => marked? 16 (fun c => c.isDigit || ('a' ≤ c.toLower && c.toLower ≤ 'f')) cs
  | '0' :: 'o' :: cs => marked? 8 (fun c => '0' ≤ c && c ≤ '7') cs
  | '0' :: 'b' :: cs => marked? 2 (fun c => c == '0' || c == '1') cs
  | '+' :: cs => signed? ['+'] cs
  | '-' :: cs => signed? ['-'] cs
  | cs => signed? [] cs

/-! ## Dates and times -/

/-- Exactly `count` digits and their value. -/
def fixedDigits? (count : Nat) (cs : List Char) : Option (Nat × List Char) :=
  let ds := cs.take count
  if ds.length = count && ds.all Char.isDigit then some (valueOf 10 ds, cs.drop count) else none

/-- The given mark, then two digits whose value is in the given range. -/
def part? (mark : Char) (least most : Nat) : List Char → Option (Nat × List Char)
  | c :: cs =>
    if c = mark then do
      let (n, rest) ← fixedDigits? 2 cs
      if least ≤ n ∧ n ≤ most then some (n, rest) else none
    else none
  | [] => none

/-- Whether a year has a twenty-ninth of February. -/
def isLeapYear (year : Nat) : Bool := (year % 4 == 0 && year % 100 != 0) || year % 400 == 0

/-- How many days a month has. -/
def daysInMonth (year month : Nat) : Nat :=
  if month = 2 then if isLeapYear year then 29 else 28
  else if month = 4 ∨ month = 6 ∨ month = 9 ∨ month = 11 then 30
  else 31

/-- What is left behind a date. -/
def date? (cs : List Char) : Option (List Char) := do
  let (year, rest) ← fixedDigits? 4 cs
  let (month, rest) ← part? '-' 1 12 rest
  let (_, rest) ← part? '-' 1 (daysInMonth year month) rest
  return rest

/-- What is left behind a time of the day. -/
def time? (cs : List Char) : Option (List Char) := do
  let (_, rest) ← part? ':' 0 23 (':' :: cs)
  let (_, rest) ← part? ':' 0 59 rest
  let (_, rest) ← part? ':' 0 60 rest
  match rest with
  | '.' :: d :: more => if d.isDigit then return more.dropWhile Char.isDigit else return rest
  | rest => return rest

/-- What is left behind an offset from universal time, if there is one. -/
def skipOffset (cs : List Char) : List Char :=
  match cs with
  | 'Z' :: rest => rest
  | 'z' :: rest => rest
  | c :: rest =>
    if c = '+' ∨ c = '-' then
      match (part? ':' 0 23 (':' :: rest)).bind fun (_, rest) => part? ':' 0 59 rest with
      | some (_, rest) => rest
      | none => cs
    else cs
  | [] => []

/-- What is left behind a date, which a time and then an offset may follow. -/
def afterDate (cs : List Char) : List Char :=
  match cs with
  | c :: rest =>
    if c = 'T' ∨ c = 't' ∨ c = ' ' then
      match time? rest with
      | some rest => skipOffset rest
      | none => cs
    else cs
  | [] => []

/-- A date, a time, or both. -/
def dateTime? (cs : List Char) : Option (Toml × List Char) := do
  let rest ←
    match date? cs with
    | some rest => some (afterDate rest)
    | none => time? cs
  return (.dateTime (cs.take (cs.length - rest.length)), rest)

end XoChip.Toml
