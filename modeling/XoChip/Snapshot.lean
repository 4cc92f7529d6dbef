import XoChip.Display
import XoChip.Machine.State

/-!
# Snapshots

A snapshot is a copy of a machine's state and of its screen in plain data. `capture` takes one
and `restore` builds a machine from one, provided that the snapshot is well formed; it reports
the first flaw otherwise and changes nothing.
-/

namespace XoChip

/-- A screen in plain data, one byte per pixel and plane. -/
structure DisplaySnapshot where
  hires : Bool
  selection : UInt8
  width : UInt64
  height : UInt64
  plane1 : Array UInt8
  plane2 : Array UInt8
  deriving DecidableEq

/-- A machine in plain data. -/
structure Snapshot where
  version : UInt32
  v : Registers
  flags : Registers
  stack : Array UInt16
  depth : UInt64
  memory : Array UInt8
  i : UInt16
  pc : UInt16
  halted : Option Halt
  /-- The ticks that were left on the delay timer. -/
  delay : UInt8
  display : DisplaySnapshot
  deriving DecidableEq

namespace Snapshot

def currentVersion : UInt32 := 1

def ofDisplay (d : Display) : DisplaySnapshot where
  hires := d.hires
  selection := d.selection
  width := UInt64.ofNat d.frame.resolution.width
  height := UInt64.ofNat d.frame.resolution.height
  plane1 := d.frame.plane1.bytes
  plane2 := d.frame.plane2.bytes

/-- A snapshot of a machine and its screen, and the machine with its delay timer brought up to
    date. -/
def capture (s : State) (d : Display) (now : Nat) : Snapshot × State :=
  let delay := s.delay.settle now
  ({ version := currentVersion
     v := s.v
     flags := s.flags
     stack := s.stack.slots.toArray
     depth := UInt64.ofNat s.stack.depth
     memory := s.memory.bytes
     i := s.i
     pc := s.pc
     halted := s.halted
     delay := delay.ticks
     display := ofDisplay d },
   { s with delay })

/-- The screen in plain data, if it is well formed. -/
def restoreDisplay (d : DisplaySnapshot) : Except SnapshotFlaw Display :=
  if 3 < d.selection then .error (.plane d.selection)
  else
    match Frame.ofPlanes? d.width d.height d.plane1 d.plane2 with
    | none => .error (.frame d.width d.height)
    | some frame =>
      if frame.resolution = Display.resolutionOf d.hires then
        .ok { hires := d.hires, selection := d.selection, frame }
      else .error (.mode d.width d.height d.hires)

/-- The call stack in plain data, if it is well formed. -/
def restoreStack (slots : Array UInt16) (depth : UInt64) : Except SnapshotFlaw CallStack :=
  if h : slots.size = 64 then
    if depth ≤ 64 then .ok { slots := ⟨slots, h⟩, depth := depth.toNat }
    else .error (.stack slots.size depth)
  else .error (.stack slots.size depth)

/-- The machine and the screen of a snapshot. The delay timer goes on counting from `now`. -/
def restore (s : Snapshot) (now : Nat) : Except SnapshotFlaw (State × Display) := do
  if s.version ≠ currentVersion then throw (.version s.version)
  let stack ← restoreStack s.stack s.depth
  match Memory.ofArray? s.memory with
  | none => throw (.memory s.memory.size)
  | some memory =>
    let display ← restoreDisplay s.display
    return ({ v := s.v
              flags := s.flags
              stack
              memory
              i := s.i
              pc := s.pc
              halted := s.halted
              delay := .start s.delay now }, display)

end Snapshot

end XoChip
