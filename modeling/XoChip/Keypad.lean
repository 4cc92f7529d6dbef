import XoChip.Text.Numeral

/-!
# The keypad

Sixteen keys. Which are held is a bit mask; every press and release is also recorded in a log of
the newest thirty-two events, numbered from the beginning of time. A `Watch` goes through the
log once and looks for a key that is pressed and then released.
-/

namespace XoChip

/-- One of the sixteen keys. -/
abbrev Key := Fin 16

/-- The key with the given number, if there is one. -/
def Key.ofByte? (n : UInt8) : Option Key := if h : n.toNat < 16 then some ⟨n.toNat, h⟩ else none

/-- The bit of a key in a mask. -/
def Key.bit (k : Key) : UInt16 := 1 <<< UInt16.ofNat k.val

/-- A change of the keypad. -/
inductive KeyEvent
  | down (k : Key)
  | up (k : Key)
  deriving DecidableEq, Repr

/-- Where a watch has got to: the number of the next event it looks at, and the key that it saw
    pressed last. -/
structure Watch where
  since : Nat
  armed : Option Key := none
  deriving DecidableEq, Repr, Inhabited

/-- The held keys and the newest events with their numbers, oldest first. -/
structure Keypad where
  mask : UInt16 := 0
  log : List (Nat × KeyEvent) := []
  next : Nat := 0
  deriving DecidableEq, Repr, Inhabited

namespace Keypad

def capacity : Nat := 32

/-- Append an event to the log, which drops its oldest one when it is full. -/
def record (p : Keypad) (e : KeyEvent) : Keypad :=
  { p with
    log := (if p.log.length = capacity then p.log.drop 1 else p.log) ++ [(p.next, e)]
    next := p.next + 1 }

/-- Press a key. A number without a key is ignored. -/
def press (p : Keypad) (n : UInt8) : Keypad :=
  match Key.ofByte? n with
  | none => p
  | some k => { p with mask := p.mask ||| k.bit }.record (.down k)

/-- Release a key. A number without a key is ignored. -/
def release (p : Keypad) (n : UInt8) : Keypad :=
  match Key.ofByte? n with
  | none => p
  | some k => { p with mask := p.mask &&& ~~~k.bit }.record (.up k)

/-- Whether a key is held; a number without a key never is. -/
def isPressed (p : Keypad) (n : UInt8) : Bool :=
  match Key.ofByte? n with
  | none => false
  | some k => p.mask &&& k.bit != 0

/-- A watch that sees what happens from now on. -/
def watch (p : Keypad) : Watch := { since := p.next }

/-- Show events to a watch until a release fires it, that is, releases the key that was pressed
    last. The watch stays armed when it fires. -/
def scan (w : Watch) : List (Nat × KeyEvent) → Option Key × Watch
  | [] => (none, w)
  | (number, .down k) :: rest => scan { since := number + 1, armed := some k } rest
  | (number, .up k) :: rest =>
    let w := { w with since := number + 1 }
    if w.armed = some k then (some k, w) else scan w rest

/-- Show a watch the events of the log that it has not seen. -/
def poll (p : Keypad) (w : Watch) : Option Key × Watch :=
  scan w (p.log.filter fun (number, _) => w.since ≤ number)

def summary (p : Keypad) : String := s!"KeyPad \x7b pressed: {Numeral.bits p.mask} \x7d"

end Keypad

end XoChip
