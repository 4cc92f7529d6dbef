import XoChip.Error
import XoChip.Instruction.Mnemonic
import XoChip.Keypad
import XoChip.Machine.Halt
import XoChip.Sound.Synth

/-!
# Notices

What the library has to say while it works, for a log. A notice is a cause; its level and its
text are functions of it.
-/

namespace XoChip

/-- How urgent a notice is. -/
inductive Level
  | error
  | warn
  | info
  | debug
  | trace
  deriving DecidableEq, Repr

namespace Level

def name : Level → String
  | error => "ERROR"
  | warn => "WARN"
  | info => "INFO"
  | debug => "DEBUG"
  | trace => "TRACE"

/-- How far down a level is. -/
def rank : Level → Nat
  | error => 0
  | warn => 1
  | info => 2
  | debug => 3
  | trace => 4

/-- The lowest level that is shown after the given number of requests for more. Errors and
    warnings are always shown. -/
def ofVerbosity (requests : Nat) : Level :=
  match requests with
  | 0 => warn
  | 1 => info
  | 2 => debug
  | _ => trace

end Level

/-- Something worth a line in a log. -/
inductive Notice
  /-- The instruction at `pc` is about to be executed. -/
  | executing (pc word : UInt16)
  | halted (reason : Halt)
  | waitingForKey (pc : UInt16)
  | keyStored (k : Key) (register : Register)
  | keyReleased (k : Key)
  /-- Somebody pressed a key that does not exist. -/
  | unknownPress (n : UInt8)
  /-- Somebody released a key that does not exist. -/
  | unknownRelease (n : UInt8)
  | playing (samples : Nat) (rate : UInt32)
  | speed (cycles : Nat)
  | loaded (size : Nat)
  | restored (pc : UInt16)
  /-- A new machine could not be built and the one before stays. -/
  | keepingPrevious (cause : Error)
  | nothingToRun
  | started
  | paused
  /-- A machine that was running by itself has stopped. -/
  | stopped (reason : Halt)
  deriving DecidableEq, Repr

namespace Notice

def level : Notice → Level
  | executing .. => .trace
  | halted (.illegal ..) => .warn
  | halted _ => .info
  | waitingForKey _ => .debug
  | keyStored .. => .debug
  | keyReleased _ => .trace
  | unknownPress _ => .warn
  | unknownRelease _ => .warn
  | playing .. => .trace
  | speed _ => .info
  | loaded _ => .info
  | restored _ => .info
  | keepingPrevious _ => .warn
  | nothingToRun => .warn
  | started => .info
  | paused => .info
  | stopped _ => .info

def keyName (k : Key) : String := String.singleton (Numeral.upperDigit k)

def text : Notice → String
  | executing pc word => Numeral.word pc ++ ": " ++ Mnemonic.listing word
  | halted reason => reason.message
  | waitingForKey pc => "Waiting for key at " ++ Numeral.word pc
  | keyStored k register =>
    "Key " ++ keyName k ++ " stored in " ++ Mnemonic.registerName register
  | keyReleased k => "Key " ++ keyName k ++ " released"
  | unknownPress n => s!"Ignoring key down of unknown key {n.toNat}"
  | unknownRelease n => s!"Ignoring key up of unknown key {n.toNat}"
  | playing samples rate => s!"Playing {samples} samples at {rate.toNat}Hz"
  | speed cycles => s!"Running {cycles} cycles per tick"
  | loaded size => s!"Loaded {size} byte program"
  | restored pc => "Restored machine at " ++ Numeral.word pc
  | keepingPrevious cause => "Keeping previous machine: " ++ cause.message
  | nothingToRun => "Nothing loaded to run"
  | started => "Machine started"
  | paused => "Machine paused"
  | stopped reason => "Machine halted: " ++ reason.message

/-- Who gives the notice. -/
def topic : Notice → String
  | executing .. | halted _ | waitingForKey _ | keyStored .. => "machine"
  | keyReleased _ | unknownPress _ | unknownRelease _ => "keypad"
  | playing .. => "sound"
  | speed _ | loaded _ | restored _ | keepingPrevious _ | nothingToRun | started | paused
  | stopped _ => "scheduler"

end Notice

/-- What a synthesizer says about a request: how much it is going to play. -/
def Synth.notice? (s : Synth) : SoundRequest → Option Notice
  | .play ticks => some (.playing (samplesOfTicks ticks s.sampleRate) s.rate)
  | _ => none

end XoChip
