/-!
# Numerals of fixed width

Listings and messages show bytes and addresses as hexadecimal numerals of a fixed number of
digits. `digits base width n` writes the lowest `width` digits of `n`; the named forms below
are the widths that occur.
-/

namespace XoChip.Numeral

/-- The lowest `width` digits of `n`, the most significant first, in lower case. -/
def digits (base : Nat) : Nat → Nat → List Char
  | 0, _ => []
  | width + 1, n => digits base width (n / base) ++ [Nat.digitChar (n % base)]

@[simp] theorem length_digits (base width n : Nat) : (digits base width n).length = width := by
  induction width generalizing n with
  | zero => rfl
  | succ width ih => simp [digits, ih]

/-- The number that decimal digits write; zero if there are none, and nothing if another character
    is among them. -/
def decimal? (ds : List Char) : Option Nat :=
  ds.foldlM (fun n d => if d.isDigit then some (10 * n + (d.toNat - '0'.toNat)) else none) 0

def byteDigits (b : UInt8) : List Char := digits 16 2 b.toNat

/-- A byte as `0x` and two digits. -/
def byte (b : UInt8) : String := String.ofList ('0' :: 'x' :: byteDigits b)

/-- A 16-bit word as `0x` and four digits. -/
def word (w : UInt16) : String := String.ofList ('0' :: 'x' :: digits 16 4 w.toNat)

/-- A 16-bit word bit by bit, as `0b` and sixteen digits. -/
def bits (w : UInt16) : String := String.ofList ('0' :: 'b' :: digits 2 16 w.toNat)

/-- A single hexadecimal digit in upper case, as registers and keys are named. -/
def upperDigit (n : Fin 16) : Char := (Nat.digitChar n.val).toUpper

/-- The text of a list of bytes, two digits each. -/
def hexDump (bytes : List UInt8) : String := String.ofList (bytes.flatMap byteDigits)

end XoChip.Numeral
