/-!
# Sound patterns

A pattern is a waveform of 128 bits, heard at two levels. `Pattern.render` turns one period of
it into samples: at `rate` bits and `sampleRate` samples per second, sample `n` plays bit
`n * rate / sampleRate`.
-/

namespace XoChip

/-- The level of a sample. -/
inductive Sample
  | low
  | high
  deriving DecidableEq, Repr, Inhabited

/-- The level at which a bit is heard. -/
def Sample.ofBit (b : Bool) : Sample := if b then .high else .low

def Sample.amplitude : Sample → Float
  | .low => -0.5
  | .high => 0.5

/-- A waveform of 128 bits: first those of `low`, then those of `high`, each from its most
    significant bit on. -/
structure Pattern where
  low : UInt64 := 0xFF00FF00FF00FF00
  high : UInt64 := 0xFF00FF00FF00FF00
  deriving DecidableEq, Repr, Inhabited

namespace Pattern

def length : Nat := 128

/-- A 64-bit word of bytes, the most significant first. -/
def wordOfBytes (bytes : List UInt8) : UInt64 :=
  bytes.foldl (fun word b => word * 256 + b.toUInt64) 0

/-- The pattern laid out in sixteen bytes of memory. -/
def ofBytes (bytes : List UInt8) : Pattern :=
  ⟨wordOfBytes (bytes.take 8), wordOfBytes ((bytes.drop 8).take 8)⟩

/-- The bit at a position, counted modulo the period. -/
def bit (p : Pattern) (n : Nat) : Bool :=
  let k := n % length
  if k < 64 then p.low.toBitVec.getMsbD k else p.high.toBitVec.getMsbD (k - 64)

/-- How many samples one period takes; none if either rate is zero. -/
def periodLength (rate sampleRate : UInt32) : Nat := length * sampleRate.toNat / rate.toNat

def render (p : Pattern) (rate sampleRate : UInt32) : Array Sample :=
  (Array.range (periodLength rate sampleRate)).map fun n =>
    .ofBit (p.bit (n * rate.toNat / sampleRate.toNat % length))

end Pattern

end XoChip
