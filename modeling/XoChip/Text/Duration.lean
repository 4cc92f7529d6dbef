/-!
# Durations as text

A duration is a number of nanoseconds. Its text uses the largest of the units s, ms, µs and ns
in which it is at least one, followed by the exact decimal fraction without trailing zeros.
-/

namespace XoChip.Text

/-- The decimal fraction `n / 10 ^ width`, without trailing zeros; empty when it is zero. -/
def fraction (width n : Nat) : List Char :=
  let digits := (Nat.toDigits 10 (Nat.pow 10 width + n)).drop 1
  match (digits.reverse.dropWhile (· = '0')).reverse with
  | [] => []
  | significant => '.' :: significant

/-- A number of nanoseconds in units of `10 ^ width` nanoseconds. -/
def inUnit (width : Nat) (unit : String) (nanos : Nat) : String :=
  let scale := Nat.pow 10 width
  toString (nanos / scale) ++ String.ofList (fraction width (nanos % scale)) ++ unit

/-- The text of a duration in its largest unit that is at least one. -/
def duration (nanos : Nat) : String :=
  if 1000000000 ≤ nanos then inUnit 9 "s" nanos
  else if 1000000 ≤ nanos then inUnit 6 "ms" nanos
  else if 1000 ≤ nanos then inUnit 3 "µs" nanos
  else inUnit 0 "ns" nanos

end XoChip.Text
