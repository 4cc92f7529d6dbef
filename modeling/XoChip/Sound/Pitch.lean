/-!
# Pitches

A pitch is a byte on a logarithmic scale of forty-eight steps to the octave, on which 64 plays
4000 bits of the pattern per second. The rate is the whole part of `4000 * 2 ^ ((p - 64) / 48)`,
which is the largest `r` with `r ^ 48 * 2 ^ 64 ≤ 4000 ^ 48 * 2 ^ p`.
-/

namespace XoChip

/-- Raise `r` by lower and lower powers of two as long as its `k`-th power stays within `n`. -/
def rootFrom (k n : Nat) : Nat → Nat → Nat
  | 0, r => r
  | bit + 1, r =>
    let raised := r + Nat.pow 2 bit
    rootFrom k n bit (if Nat.pow raised k ≤ n then raised else r)

/-- The largest number whose `k`-th power is at most `n`, for positive `k`. -/
def root (k n : Nat) : Nat := rootFrom k n (n.log2 / k + 1) 0

/-- The rate of a pattern before a program chooses a pitch, in bits per second. -/
def defaultRate : UInt32 := 4000

/-- The rate that a pitch selects, in bits per second. -/
def pitchRate (pitch : UInt8) : UInt32 :=
  UInt32.ofNat (root 48 (Nat.pow defaultRate.toNat 48 * Nat.pow 2 pitch.toNat / UInt64.size))

end XoChip
