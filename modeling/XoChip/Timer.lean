import XoChip.Text.Duration

/-!
# Clock and delay timer

Time is counted in nanoseconds from an arbitrary origin. The delay timer counts down sixty times
a second, but nothing ever decrements it in the background: it keeps the value it was given and
the moment to which that value belongs, and `Timer.settle` brings both up to date.
-/

namespace XoChip

/-- A clock that moves when told to. It shows a 64-bit number of nanoseconds. -/
structure Clock where
  nanos : UInt64 := 0
  deriving DecidableEq, Repr, Inhabited

def Clock.now (c : Clock) : Nat := c.nanos.toNat

/-- Move a clock on. It wraps around, so a step of nearly `2 ^ 64` moves it back. -/
def Clock.advance (c : Clock) (nanos : Nat) : Clock := ⟨c.nanos + UInt64.ofNat nanos⟩

/-- The length of a tick, a sixtieth of a second, in nanoseconds. -/
def tickNanos : Nat := 16666667

/-- A countdown: the ticks that were left at the moment `mark`. -/
structure Timer where
  ticks : UInt8 := 0
  mark : Nat
  deriving DecidableEq, Repr, Inhabited

namespace Timer

def expired (now : Nat) : Timer := ⟨0, now⟩

/-- A timer that starts to count down from `ticks`. -/
def start (ticks : UInt8) (now : Nat) : Timer := ⟨ticks, now⟩

/-- How many whole ticks have passed since the mark; none if the clock stands before it. -/
def elapsed (t : Timer) (now : Nat) : Nat := (now - t.mark) / tickNanos

/-- The timer as of `now`. Its mark moves by whole ticks, so that the part of a tick that has
    already passed is not lost; once it has expired the mark is `now`. -/
def settle (t : Timer) (now : Nat) : Timer :=
  if t.ticks.toNat ≤ t.elapsed now then ⟨0, now⟩
  else ⟨t.ticks - UInt8.ofNat (t.elapsed now), t.mark + tickNanos * t.elapsed now⟩

def left (t : Timer) (now : Nat) : UInt8 := (t.settle now).ticks

def summary (t : Timer) : String :=
  s!"Timer \x7b ticks: {t.ticks.toNat}, mark: {Text.duration t.mark} \x7d"

end Timer

end XoChip
