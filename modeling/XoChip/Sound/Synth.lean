import XoChip.Sound.Pattern
import XoChip.Sound.Pitch

/-!
# Sound requests and their synthesis

A machine does not make sound; it asks for it. `Synth` answers the requests: it remembers
pattern and rate, and holds the newest request to play until its samples are taken.
-/

namespace XoChip

/-- What a machine asks of whatever makes its sound. -/
inductive SoundRequest
  | setPattern (pattern : Pattern)
  | setRate (rate : UInt32)
  /-- Sound the pattern for a number of ticks, in place of what is playing. -/
  | play (ticks : UInt8)
  deriving DecidableEq, Repr

/-- A request to play, with the pattern and the rates that were in force. -/
structure Playback where
  pattern : Pattern
  rate : UInt32
  sampleRate : UInt32
  ticks : UInt8
  deriving DecidableEq, Repr

/-- How many samples the given number of ticks takes. -/
def samplesOfTicks (ticks : UInt8) (sampleRate : UInt32) : Nat :=
  ticks.toNat * sampleRate.toNat / 60

/-- The samples of a playback: the rendered period over and over, for as long as it lasts. A
    period without samples plays nothing. -/
def Playback.samples (p : Playback) : Array Sample :=
  let period := p.pattern.render p.rate p.sampleRate
  if h : 0 < period.size then
    (Array.range (samplesOfTicks p.ticks p.sampleRate)).map fun k =>
      have : k % period.size < period.size := Nat.mod_lt k h
      period[k % period.size]
  else #[]

/-- A synthesizer. -/
structure Synth where
  sampleRate : UInt32
  pattern : Pattern := {}
  rate : UInt32 := defaultRate
  pending : Option Playback := none
  deriving DecidableEq, Repr

namespace Synth

def handle (s : Synth) : SoundRequest → Synth
  | .setPattern pattern => { s with pattern }
  | .setRate rate => { s with rate }
  | .play ticks => { s with pending := some ⟨s.pattern, s.rate, s.sampleRate, ticks⟩ }

/-- The samples of the newest request to play, unless they were taken already. -/
def take (s : Synth) : Option (Array Sample) × Synth :=
  (s.pending.map Playback.samples, { s with pending := none })

end Synth

end XoChip
