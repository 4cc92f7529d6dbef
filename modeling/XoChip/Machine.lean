import XoChip.Context
import XoChip.Machine.State
import XoChip.Random

/-!
# The machine

`Console.step` executes one instruction and `Console.tick` a batch. A step never blocks: when an
instruction has to wait for a key, the outcome carries a `KeyWait`, which is completed by
`KeyWait.poll` once the key has come. A halt is an outcome too, and it has no other effect than
being recorded; from then on every step reports it again.
-/

namespace XoChip

/-- A machine: its state, the dialect it obeys, its random generator, and whether the last
    instruction drew a sprite. -/
structure Machine where
  state : State
  dialect : Dialect
  random : Random
  drew : Bool := false
  deriving DecidableEq

/-- A machine in its surroundings. -/
structure Console where
  machine : Machine
  context : Context

/-- An instruction that waits for a key: the register that receives the key and the
    instruction's address. While it waits, the program counter stays on it. -/
structure KeyWait where
  register : Register
  pc : UInt16
  watch : Watch
  deriving DecidableEq, Repr

/-- How a step or a batch ended. -/
inductive Outcome
  | ran
  | awaits (wait : KeyWait)
  | halts (reason : Halt)
  deriving DecidableEq, Repr

namespace Console

abbrev state (s : Console) : State := s.machine.state

@[inline] def mapState (s : Console) (f : State → State) : Console :=
  { s with machine := { s.machine with state := f s.machine.state } }

def setState (s : Console) (t : State) : Console :=
  { s with machine := { s.machine with state := t } }

@[inline] def mapDisplay (s : Console) (f : Display → Display) : Console :=
  { s with context := { s.context with display := f s.context.display } }

def emit (s : Console) (e : Effect) : Console := { s with context := s.context.emit e }

def tell (s : Console) (n : Notice) : Console := s.emit (.notice n)

/-- Draw the sprite at `I`. `VF` tells whether a lit pixel went dark. -/
def draw (s : Console) (x y : Register) (lines : UInt8) : Console :=
  let bytes :=
    s.state.memory.readMany s.state.i (Sprite.totalBytes lines s.context.display.selection)
  let (hit, display) :=
    s.context.display.draw (s.state.get x).toNat (s.state.get y).toNat bytes lines
  { machine :=
      { s.machine with state := s.state.set .flag (if hit then 1 else 0), drew := true }
    context := { s.context with display } }

/-- Put a masked random byte into `VX`. -/
def randomByte (s : Console) (x : Register) (nn : UInt8) : Console :=
  let (b, random) := s.machine.random.next
  { s with machine := { s.machine with random, state := s.state.set x (b &&& nn) } }

/-- Begin to wait for a key, with the program counter back on the instruction. -/
def awaitKey (s : Console) (pc : UInt16) (x : Register) : Outcome × Console :=
  (.awaits ⟨x, pc, s.context.keypad.watch⟩,
    (s.setState { s.state with pc }).tell (.waitingForKey pc))

/-- Put the ticks that are left into `VX`. -/
def readDelay (s : Console) (x : Register) : Console :=
  let delay := s.state.delay.settle s.context.clock.now
  s.setState ({ s.state with delay }.set x delay.ticks)

/-- Execute an instruction that stands at `pc` and does not stop the program; the program counter
    is behind it already. -/
def execute (s : Console) (pc : UInt16) : Instruction → Outcome × Console
  | .clear => (.ran, s.mapDisplay Display.clear)
  | .ret => (.ran, s.mapState State.ret)
  | .scrollDown n => (.ran, s.mapDisplay (·.scrollDown (UInt8.ofNat n.val)))
  | .scrollUp n => (.ran, s.mapDisplay (·.scrollUp (UInt8.ofNat n.val)))
  | .scrollRight => (.ran, s.mapDisplay Display.scrollRight)
  | .scrollLeft => (.ran, s.mapDisplay Display.scrollLeft)
  | .exit => (.ran, s)
  | .lores => (.ran, s.mapDisplay (·.setHires false))
  | .hires => (.ran, s.mapDisplay (·.setHires true))
  | .jump nnn => (.ran, s.setState { s.state with pc := nnn })
  | .call nnn => (.ran, s.mapState (·.call nnn))
  | .skipIfByte x nn => (.ran, s.mapState fun t => t.skipIf (t.get x == nn))
  | .skipUnlessByte x nn => (.ran, s.mapState fun t => t.skipIf (t.get x != nn))
  | .skipIfEqual x y => (.ran, s.mapState fun t => t.skipIf (t.get x == t.get y))
  | .storeRange x y => (.ran, s.mapState (·.storeRange x y))
  | .loadRange x y => (.ran, s.mapState (·.loadRange x y))
  | .setByte x nn => (.ran, s.mapState (·.set x nn))
  | .addByte x nn => (.ran, s.mapState fun t => t.set x (t.get x + nn))
  | .alu op x y => (.ran, s.setState (s.state.alu s.machine.dialect op x y))
  | .skipUnlessEqual x y => (.ran, s.mapState fun t => t.skipIf (t.get x != t.get y))
  | .setIndex nnn => (.ran, s.setState { s.state with i := nnn })
  | .jumpPlus nnn => (.ran, s.setState (s.state.jumpPlus s.machine.dialect nnn))
  | .random x nn => (.ran, s.randomByte x nn)
  | .draw x y n => (.ran, s.draw x y (UInt8.ofNat n.val))
  | .skipIfKey x =>
    (.ran, s.setState (s.state.skipIf (s.context.keypad.isPressed (s.state.get x))))
  | .skipUnlessKey x =>
    (.ran, s.setState (s.state.skipIf (!s.context.keypad.isPressed (s.state.get x))))
  | .setIndexLong => (.ran, s.mapState State.setIndexLong)
  | .selectPlanes n => (.ran, s.mapDisplay (·.select (UInt8.ofNat n.val)))
  | .loadPattern =>
    (.ran, s.emit (.sound (.setPattern (.ofBytes (s.state.memory.readMany s.state.i 16)))))
  | .readDelay x => (.ran, s.readDelay x)
  | .awaitKey x => s.awaitKey pc x
  | .setDelay x =>
    (.ran, s.setState { s.state with delay := .start (s.state.get x) s.context.clock.now })
  | .playSound x => (.ran, s.emit (.sound (.play (s.state.get x))))
  | .addIndex x => (.ran, s.mapState fun t => { t with i := t.i + (t.get x).toUInt16 })
  | .smallGlyph x => (.ran, s.mapState fun t => { t with i := Font.smallAddress (t.get x) })
  | .largeGlyph x => (.ran, s.mapState fun t => { t with i := Font.largeAddress (t.get x) })
  | .storeDecimal x => (.ran, s.mapState (·.storeDecimal x))
  | .setPitch x => (.ran, s.emit (.sound (.setRate (pitchRate (s.state.get x)))))
  | .storeRegisters x => (.ran, s.mapState (·.storeRegisters x))
  | .loadRegisters x => (.ran, s.mapState (·.loadRegisters x))
  | .saveFlags x => (.ran, s.mapState (·.saveFlags x))
  | .loadFlags x => (.ran, s.mapState (·.loadFlags x))

/-- Move the program counter behind the instruction and announce it. -/
def fetch (s : Console) : Console :=
  let notice := .executing s.state.pc s.state.word
  { s with
    machine := { s.machine with state := { s.state with pc := s.state.pc + 2 }, drew := false }
    context := s.context.tell notice }

def halt (s : Console) (reason : Halt) : Outcome × Console :=
  (.halts reason,
    (s.setState { s.state with halted := some reason }).tell (.halted reason))

/-- Execute one instruction. A halted machine does nothing. -/
def step (s : Console) : Outcome × Console :=
  match s.state.halted with
  | some reason => (.halts reason, s)
  | none =>
    match s.state.next with
    | .error reason => s.fetch.halt reason
    | .ok i => s.fetch.execute s.state.pc i

/-- Whether the dialect ends a batch here, because a sprite was just drawn. -/
def endsBatch (s : Console) : Bool := s.machine.drew && s.machine.dialect.vsyncDraw

/-- Execute up to the given number of instructions, ending early when the machine waits or
    halts. -/
def tick : Nat → Console → Outcome × Console
  | 0, s => (.ran, s)
  | n + 1, s =>
    match s.step with
    | (.ran, s) => if s.endsBatch then (.ran, s) else tick n s
    | result => result

end Console

namespace KeyWait

/-- Complete the waiting instruction with a key. -/
def resolve (w : KeyWait) (k : Key) (s : Console) : Console :=
  (s.mapState fun t => { t.set w.register (UInt8.ofNat k.val) with pc := w.pc + 2 }).tell
    (.keyStored k w.register)

/-- Look whether a key has come, and complete the instruction if one has. -/
def poll (w : KeyWait) (s : Console) : Bool × KeyWait × Console :=
  match s.context.keypad.poll w.watch with
  | (none, watch) => (false, { w with watch }, s)
  | (some k, watch) => (true, { w with watch }, w.resolve k s)

/-- Look once on behalf of a blocking wait, and complete the instruction if a key has come. -/
def await (w : KeyWait) (cancelled : Bool) (s : Console) : Awaited × KeyWait × Console :=
  match s.context.await w.watch cancelled with
  | (.released k, watch, context) =>
    (.released k, { w with watch }, w.resolve k { s with context })
  | (result, watch, context) => (result, { w with watch }, { s with context })

end KeyWait

end XoChip
