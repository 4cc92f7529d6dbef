import XoChip.Display
import XoChip.Keypad
import XoChip.Notice
import XoChip.Timer

/-!
# The surroundings of a machine

A machine shares a keypad, a display and a clock with its host. What it does beyond changing
those, sound requests and notices, is appended to a list of effects that the host works off.
-/

namespace XoChip

/-- Something done to the outside. -/
inductive Effect
  | sound (request : SoundRequest)
  | notice (notice : Notice)
  deriving DecidableEq, Repr

/-- What a machine shares with its host, and the effects that nobody has worked off yet. -/
structure Context where
  keypad : Keypad := {}
  display : Display := {}
  clock : Clock := {}
  effects : Array Effect := #[]
  deriving Inhabited

/-- How a blocking wait for a key goes on. -/
inductive Awaited
  /-- A key was pressed and released. -/
  | released (k : Key)
  /-- Nothing has come and the wait was cancelled. -/
  | interrupted
  /-- Nothing has come yet. -/
  | blocked
  deriving DecidableEq, Repr

def Awaited.interruption : String := "key wait interrupted"

namespace Context

def emit (c : Context) (e : Effect) : Context := { c with effects := c.effects.push e }

def tell (c : Context) (n : Notice) : Context := c.emit (.notice n)

def press (c : Context) (n : UInt8) : Context :=
  match Key.ofByte? n with
  | none => c.tell (.unknownPress n)
  | some _ => { c with keypad := c.keypad.press n }

def release (c : Context) (n : UInt8) : Context :=
  match Key.ofByte? n with
  | none => c.tell (.unknownRelease n)
  | some _ => { c with keypad := c.keypad.release n }

/-- Look once at the keypad on behalf of a wait that blocks until a key fires the watch or the
    wait is cancelled. A key that has come counts even if the wait is cancelled. -/
def await (c : Context) (w : Watch) (cancelled : Bool) : Awaited × Watch × Context :=
  match c.keypad.poll w with
  | (some k, w) => (.released k, w, c.tell (.keyReleased k))
  | (none, w) => (if cancelled then .interrupted else .blocked, w, c)

end Context

end XoChip
