import XoChip.Json
import XoChip.Text.Numeral

/-!
# Writing JSON text

Values are written without blanks. Inside strings, quotes, backslashes and control characters
are escaped and all other characters stand for themselves.
-/

namespace XoChip.Json

/-- A character inside a string literal. -/
def escaped (c : Char) : List Char :=
  if c = '"' then ['\\', '"']
  else if c = '\\' then ['\\', '\\']
  else if c = '\n' then ['\\', 'n']
  else if c = '\r' then ['\\', 'r']
  else if c = '\t' then ['\\', 't']
  else if c = '\x08' then ['\\', 'b']
  else if c = '\x0c' then ['\\', 'f']
  else if c.toNat < 0x20 then '\\' :: 'u' :: Numeral.digits 16 4 c.toNat
  else [c]

/-- A string literal. Content that names no text is written as a surrogate without partner. -/
def printString : Option (List Char) → List Char
  | some cs => '"' :: (cs.flatMap escaped ++ ['"'])
  | none => "\"\\ud800\"".toList

mutual

def print : Json → List Char
  | .null => "null".toList
  | .bool true => "true".toList
  | .bool false => "false".toList
  | .natural n => Nat.toDigits 10 n
  | .number literal => literal
  | .string content => printString content
  | .array [] => ['[', ']']
  | .array (e :: es) => '[' :: (print e ++ printElements es)
  | .object [] => ['\x7b', '\x7d']
  | .object ((name, value) :: fields) =>
    '\x7b' :: (printString name ++ ':' :: (print value ++ printFields fields))

/-- The remaining elements of an array, each behind a comma, and the closing bracket. -/
def printElements : List Json → List Char
  | [] => [']']
  | e :: es => ',' :: (print e ++ printElements es)

/-- The remaining fields of an object, each behind a comma, and the closing brace. -/
def printFields : List (Option (List Char) × Json) → List Char
  | [] => ['\x7d']
  | (name, value) :: fields =>
    ',' :: (printString name ++ ':' :: (print value ++ printFields fields))

end

end XoChip.Json
