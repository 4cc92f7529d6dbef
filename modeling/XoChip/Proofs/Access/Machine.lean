import XoChip.Proofs.Access.State
import XoChip.Proofs.Instruction.Encoding
import XoChip.Proofs.Invariant

/-!
# No access is out of range

Machine, key waits and host once more, put together from the checked accesses to state and display.
They have a result wherever the machine is well formed, the one that the machine gives, and machines
stay well formed; so no run ever goes beyond the end of an array.
-/

namespace XoChip

open Access

namespace Console

def mapState? (s : Console) (f : State → Option State) : Option Console := (f s.state).map s.setState

def mapDisplay? (s : Console) (f : Display → Option Display) : Option Console :=
  (f s.context.display).map fun display => { s with context := { s.context with display } }

/-- Pass over the next word if the condition holds of the value of a register. -/
def skipIf? (s : Console) (x : Register) (condition : UInt8 → Bool) : Option Console :=
  s.mapState? fun t => do return t.skipIf (condition (← t.get? x.val))

/-- Pass over the next word if the condition holds of the values of two registers. -/
def skipIf2? (s : Console) (x y : Register) (condition : UInt8 → UInt8 → Bool) : Option Console :=
  s.mapState? fun t => do return t.skipIf (condition (← t.get? x.val) (← t.get? y.val))

def draw? (s : Console) (x y : Register) (lines : UInt8) : Option Console := do
  let bytes ← s.state.memory.readMany? s.state.i
    (Sprite.totalBytes lines s.context.display.selection)
  let a ← s.state.get? x.val
  let b ← s.state.get? y.val
  let (hit, display) ← s.context.display.draw? a.toUInt64 b.toUInt64 bytes lines
  let state ← s.state.set? Register.flag.val (if hit then 1 else 0)
  return { machine := { s.machine with state, drew := true }
           context := { s.context with display } }

def randomByte? (s : Console) (x : Register) (nn : UInt8) : Option Console := do
  let (b, random) := s.machine.random.next
  let state ← s.state.set? x.val (b &&& nn)
  return { s with machine := { s.machine with random, state } }

def readDelay? (s : Console) (x : Register) : Option Console :=
  let delay := s.state.delay.settle s.context.clock.now
  s.mapState? fun t => { t with delay }.set? x.val delay.ticks

/-- What an instruction does, waits for a key apart. -/
def effect? (s : Console) : Instruction → Option Console
  | .clear => some (s.mapDisplay Display.clear)
  | .ret => s.mapState? State.ret?
  | .scrollDown n => s.mapDisplay? (·.scrollDown? (UInt8.ofNat n.val))
  | .scrollUp n => s.mapDisplay? (·.scrollUp? (UInt8.ofNat n.val))
  | .scrollRight => s.mapDisplay? (·.mapSelected? Plane.scrollRight?)
  | .scrollLeft => s.mapDisplay? (·.mapSelected? Plane.scrollLeft?)
  | .exit => some s
  | .lores => some (s.mapDisplay (·.setHires false))
  | .hires => some (s.mapDisplay (·.setHires true))
  | .jump nnn => some (s.setState { s.state with pc := nnn })
  | .call nnn => s.mapState? (·.call? nnn)
  | .skipIfByte x nn => s.skipIf? x (· == nn)
  | .skipUnlessByte x nn => s.skipIf? x (· != nn)
  | .skipIfEqual x y => s.skipIf2? x y (· == ·)
  | .storeRange x y => s.mapState? (·.storeAll? (Register.indices x.val y.val))
  | .loadRange x y => s.mapState? (·.loadAll? (Register.indices x.val y.val))
  | .setByte x nn => s.mapState? (·.set? x.val nn)
  | .addByte x nn => s.mapState? fun t => do t.set? x.val ((← t.get? x.val) + nn)
  | .alu op x y => s.mapState? (·.alu? s.machine.dialect op x y)
  | .skipUnlessEqual x y => s.skipIf2? x y (· != ·)
  | .setIndex nnn => some (s.setState { s.state with i := nnn })
  | .jumpPlus nnn => s.mapState? (·.jumpPlus? s.machine.dialect nnn)
  | .random x nn => s.randomByte? x nn
  | .draw x y n => s.draw? x y (UInt8.ofNat n.val)
  | .skipIfKey x => s.skipIf? x s.context.keypad.isPressed
  | .skipUnlessKey x => s.skipIf? x (!s.context.keypad.isPressed ·)
  | .setIndexLong => s.mapState? State.setIndexLong?
  | .selectPlanes n => some (s.mapDisplay (·.select (UInt8.ofNat n.val)))
  | .loadPattern => do
    let bytes ← s.state.memory.readMany? s.state.i 16
    return s.emit (.sound (.setPattern (.ofBytes bytes)))
  | .readDelay x => s.readDelay? x
  | .awaitKey _ => none
  | .setDelay x => do
    let ticks ← s.state.get? x.val
    return s.setState { s.state with delay := .start ticks s.context.clock.now }
  | .playSound x => do return s.emit (.sound (.play (← s.state.get? x.val)))
  | .addIndex x =>
    s.mapState? fun t => do return { t with i := t.i + (← t.get? x.val).toUInt16 }
  | .smallGlyph x =>
    s.mapState? fun t => do return { t with i := Font.smallAddress (← t.get? x.val) }
  | .largeGlyph x =>
    s.mapState? fun t => do return { t with i := Font.largeAddress (← t.get? x.val) }
  | .storeDecimal x => s.mapState? (·.storeDecimal? x)
  | .setPitch x => do return s.emit (.sound (.setRate (pitchRate (← s.state.get? x.val))))
  | .storeRegisters x => s.mapState? (·.storeAll? (Register.indices 0 x.val))
  | .loadRegisters x => s.mapState? (·.loadAll? (Register.indices 0 x.val))
  | .saveFlags x => s.mapState? (·.saveFlags? x)
  | .loadFlags x => s.mapState? (·.loadFlags? x)

def execute? (s : Console) (pc : UInt16) : Instruction → Option (Outcome × Console)
  | .awaitKey x => some (s.awaitKey pc x)
  | i => (s.effect? i).map (.ran, ·)

/-- Read the word at the program counter, move behind it and announce it. -/
def fetch? (s : Console) : Option (UInt16 × Console) := do
  let word ← s.state.memory.readWord? s.state.pc
  let machine := { s.machine with state := { s.state with pc := s.state.pc + 2 }, drew := false }
  return (word, { machine, context := s.context.tell (.executing s.state.pc word) })

def step? (s : Console) : Option (Outcome × Console) :=
  match s.state.halted with
  | some reason => some (.halts reason, s)
  | none => do
    let (word, fetched) ← s.fetch?
    match s.state.judge word with
    | .error reason => some (fetched.halt reason)
    | .ok i => fetched.execute? s.state.pc i

def tick? : Nat → Console → Option (Outcome × Console)
  | 0, s => some (.ran, s)
  | n + 1, s => do
    match ← s.step? with
    | (.ran, s) => if s.endsBatch then some (.ran, s) else tick? n s
    | result => some result

/-- What an instruction needs lest it goes beyond the end of an array. -/
def Executable (s : Console) : Instruction → Prop
  | .ret => s.state.stack.isEmpty = false
  | .call _ => s.state.stack.isFull = false
  | .jumpPlus nnn => nnn.toNat < 0x1000
  | _ => True

theorem executable_of_next {s : Console} {i : Instruction} (h : s.state.next = .ok i) :
    s.fetch.Executable i := by
  obtain ⟨decoded, admits⟩ := State.judge_eq_ok_iff.1 h
  cases i with
  | ret => exact admits
  | call nnn => exact admits.1
  | jumpPlus nnn => exact Instruction.fits_of_decode? decoded
  | _ => trivial

theorem mapState?_eq {s : Console} {f : State → Option State} {t : State} (h : f s.state = some t) :
    s.mapState? f = some (s.setState t) := by
  rw [mapState?, h]
  rfl

theorem skipIf?_eq (s : Console) (x : Register) (condition : UInt8 → Bool) :
    s.skipIf? x condition = some (s.mapState fun t => t.skipIf (condition (t.get x))) :=
  mapState?_eq (by rw [State.get?_eq]; rfl)

theorem skipIf2?_eq (s : Console) (x y : Register) (condition : UInt8 → UInt8 → Bool) :
    s.skipIf2? x y condition =
      some (s.mapState fun t => t.skipIf (condition (t.get x) (t.get y))) :=
  mapState?_eq (by rw [State.get?_eq, State.get?_eq]; rfl)

theorem randomByte?_eq (s : Console) (x : Register) (nn : UInt8) :
    s.randomByte? x nn = some (s.randomByte x nn) := by
  unfold randomByte?
  dsimp only
  rw [State.set?_eq]
  rfl

theorem readDelay?_eq (s : Console) (x : Register) :
    s.readDelay? x = some (s.readDelay x) := by
  rw [readDelay?]
  exact mapState?_eq (by rw [State.set?_eq])

theorem fetch?_eq (s : Console) : s.fetch? = some (s.state.word, s.fetch) := by
  rw [fetch?, Memory.readWord?_eq]
  rfl

namespace WellFormed

variable {s : Console}

theorem mapDisplay?_eq {f : Display → Option Display} {d : Display}
    (hf : f s.context.display = some d) :
    s.mapDisplay? f = some { s with context := { s.context with display := d } } := by
  rw [mapDisplay?, hf]
  rfl

/-- The sprite is read from memory, the flag is written to the registers, and no pixel lies beside
    the screen. -/
theorem draw?_eq (h : s.WellFormed) (x y : Register) (lines : UInt8) :
    s.draw? x y lines = some (s.draw x y lines) := by
  rw [draw?, Memory.readMany?_eq, State.get?_eq, State.get?_eq]
  simp only [Option.bind_eq_bind, Option.bind_some, h.display.draw?_eq, State.set?_eq]
  rfl

/-- An executable instruction stays within the arrays of a well-formed machine. -/
theorem effect?_eq (h : s.WellFormed) (pc : UInt16) {i : Instruction} (hi : s.Executable i)
    (waits : ∀ x, i ≠ .awaitKey x) : s.effect? i = some (s.execute pc i).2 := by
  unfold effect?
  cases i with
  | clear | exit | lores | hires | jump | setIndex | selectPlanes => rfl
  | awaitKey x => exact absurd rfl (waits x)
  | ret => exact mapState?_eq (State.ret?_eq hi h.depth)
  | call nnn => exact mapState?_eq (State.call?_eq hi h.depth nnn)
  | jumpPlus nnn => exact mapState?_eq (State.jumpPlus?_eq _ hi)
  | scrollDown n => exact mapDisplay?_eq (h.display.scrollDown?_eq _)
  | scrollUp n => exact mapDisplay?_eq (h.display.scrollUp?_eq _)
  | scrollRight => exact mapDisplay?_eq h.display.scrollRight?_eq
  | scrollLeft => exact mapDisplay?_eq h.display.scrollLeft?_eq
  | draw x y n => exact h.draw?_eq x y _
  | skipIfByte x nn => exact skipIf?_eq s x _
  | skipUnlessByte x nn => exact skipIf?_eq s x _
  | skipIfEqual x y => exact skipIf2?_eq s x y _
  | skipUnlessEqual x y => exact skipIf2?_eq s x y _
  | skipIfKey x => exact skipIf?_eq s x _
  | skipUnlessKey x => exact skipIf?_eq s x _
  | storeRange x y => exact mapState?_eq (State.storeRange?_eq _ x y)
  | loadRange x y => exact mapState?_eq (State.loadRange?_eq _ x y)
  | storeRegisters x => exact mapState?_eq (State.storeRegisters?_eq _ x)
  | loadRegisters x => exact mapState?_eq (State.loadRegisters?_eq _ x)
  | saveFlags x => exact mapState?_eq (State.saveFlags?_eq _ x)
  | loadFlags x => exact mapState?_eq (State.loadFlags?_eq _ x)
  | storeDecimal x => exact mapState?_eq (State.storeDecimal?_eq _ x)
  | setIndexLong => exact mapState?_eq (State.setIndexLong?_eq _)
  | alu op x y => exact mapState?_eq (State.alu?_eq _ _ x y op)
  | setByte x nn => exact mapState?_eq (State.set?_eq _ x nn)
  | addByte x nn =>
    refine mapState?_eq ?_
    rw [State.get?_eq]
    exact State.set?_eq _ x _
  | random x nn => exact randomByte?_eq s x nn
  | readDelay x => exact readDelay?_eq s x
  | loadPattern =>
    dsimp only
    rw [Memory.readMany?_eq]
    rfl
  | setDelay x | playSound x | setPitch x =>
    dsimp only
    rw [State.get?_eq]
    rfl
  | addIndex x | smallGlyph x | largeGlyph x =>
    refine mapState?_eq ?_
    rw [State.get?_eq]
    rfl

theorem execute?_eq (h : s.WellFormed) (pc : UInt16) {i : Instruction} (hi : s.Executable i) :
    s.execute? pc i = some (s.execute pc i) := by
  unfold execute?
  split
  · rfl
  · next waits =>
    have ran : (s.execute pc i).1 = .ran := by
      cases i with
      | awaitKey x => exact absurd rfl (waits x)
      | _ => rfl
    rw [h.effect?_eq pc hi waits, Option.map_some, ← ran]

theorem step?_eq (h : s.WellFormed) : s.step? = some s.step := by
  have fetched : s.fetch.WellFormed := h.congr rfl rfl
  unfold step?
  cases hs : s.state.halted with
  | some reason => rw [step_of_halted hs]
  | none =>
    rw [fetch?_eq]
    simp only [Option.bind_eq_bind, Option.bind_some]
    cases hn : s.state.judge s.state.word with
    | error reason => rw [step_of_error hs hn]
    | ok i => rw [step_of_ok hs hn]; exact fetched.execute?_eq _ (executable_of_next hn)

theorem tick?_eq (h : s.WellFormed) (n : Nat) : tick? n s = some (Console.tick n s) := by
  induction n generalizing s with
  | zero => rfl
  | succ n ih =>
    have stepped := h.step
    rw [tick?, h.step?_eq, Console.tick]
    simp only [Option.bind_eq_bind, Option.bind_some]
    generalize s.step = result at stepped
    obtain ⟨outcome, after⟩ := result
    cases outcome with
    | ran =>
      dsimp only
      rw [ih stepped]
      split <;> rfl
    | awaits | halts => rfl

end WellFormed

end Console

/-! ## Key waits -/

namespace KeyWait

def resolve? (w : KeyWait) (k : Key) (s : Console) : Option Console := do
  let state ← s.state.set? w.register.val (UInt8.ofNat k.val)
  return (s.setState { state with pc := w.pc + 2 }).tell (.keyStored k w.register)

def poll? (w : KeyWait) (s : Console) : Option (Bool × KeyWait × Console) :=
  match s.context.keypad.poll w.watch with
  | (none, watch) => some (false, { w with watch }, s)
  | (some k, watch) => (w.resolve? k s).map (true, { w with watch }, ·)

def await? (w : KeyWait) (cancelled : Bool) (s : Console) : Option (Awaited × KeyWait × Console) :=
  match s.context.await w.watch cancelled with
  | (.released k, watch, context) =>
    (w.resolve? k { s with context }).map (.released k, { w with watch }, ·)
  | (result, watch, context) => some (result, { w with watch }, { s with context })

theorem resolve?_eq (w : KeyWait) (k : Key) (s : Console) :
    w.resolve? k s = some (w.resolve k s) := by
  rw [resolve?, State.set?_eq]
  rfl

theorem poll?_eq (w : KeyWait) (s : Console) : w.poll? s = some (w.poll s) := by
  unfold poll? poll
  obtain ⟨key, watch⟩ := s.context.keypad.poll w.watch
  cases key with
  | none => rfl
  | some k =>
    dsimp only
    rw [resolve?_eq]
    rfl

theorem await?_eq (w : KeyWait) (cancelled : Bool) (s : Console) :
    w.await? cancelled s = some (w.await cancelled s) := by
  unfold await? await
  obtain ⟨result, watch, context⟩ := s.context.await w.watch cancelled
  cases result with
  | released k =>
    dsimp only
    rw [resolve?_eq]
    rfl
  | interrupted | blocked => rfl

end KeyWait

/-! ## Runs -/

def Console.perform? (s : Console) : Console.Move → Option Console
  | .step => s.step?.map Prod.snd
  | .tick count => (tick? count s).map Prod.snd
  | .poll wait => (wait.poll? s).map fun result => result.2.2
  | .await wait cancelled => (wait.await? cancelled s).map fun result => result.2.2
  | .press n => some { s with context := s.context.press n }
  | .release n => some { s with context := s.context.release n }
  | .advance nanos =>
    some { s with context := { s.context with clock := s.context.clock.advance nanos } }

theorem Console.WellFormed.perform?_eq {s : Console} (h : s.WellFormed) (m : Console.Move) :
    s.perform? m = some (s.perform m).2 := by
  cases m with
  | step =>
    rw [Console.perform?, h.step?_eq]
    rfl
  | tick count =>
    rw [Console.perform?, h.tick?_eq]
    rfl
  | poll wait =>
    rw [Console.perform?, KeyWait.poll?_eq]
    rfl
  | await wait cancelled =>
    rw [Console.perform?, KeyWait.await?_eq]
    rfl
  | press | release | advance => rfl

/-- The data of a machine and its display are of the sizes that they have to be of. -/
structure Console.Bounded (s : Console) : Prop where
  depth : s.state.stack.depth ≤ 64
  slots : s.state.stack.slots.toArray.size = 64
  memory : s.state.memory.bytes.size = 65536
  size : (s.context.display.frame.resolution.width, s.context.display.frame.resolution.height) =
    if s.context.display.hires then (128, 64) else (64, 32)
  plane1 : s.context.display.frame.plane1.bytes.size =
    s.context.display.frame.resolution.width * s.context.display.frame.resolution.height
  plane2 : s.context.display.frame.plane2.bytes.size =
    s.context.display.frame.resolution.width * s.context.display.frame.resolution.height
  pixels1 : ∀ b ∈ s.context.display.frame.plane1.bytes, b = 0 ∨ b = 1
  pixels2 : ∀ b ∈ s.context.display.frame.plane2.bytes, b = 0 ∨ b = 1
  selection : s.context.display.selection ≤ 3

theorem Console.WellFormed.bounded {s : Console} (h : s.WellFormed) : s.Bounded where
  depth := h.depth
  slots := s.state.stack.slots.size_toArray
  memory := s.state.memory.size_bytes
  size := by
    rw [h.display.resolution]
    cases s.context.display.hires <;> rfl
  plane1 := (Plane.size_bytes _).trans h.display.frame.size_plane1
  plane2 := (Plane.size_bytes _).trans h.display.frame.size_plane2
  pixels1 := Plane.eq_zero_or_one_of_mem_bytes
  pixels2 := Plane.eq_zero_or_one_of_mem_bytes
  selection := h.display.selection

namespace Session

def perform? (s : Session) : Act → Option Session
  | .move m => (s.console.perform? m).map fun console => { s with console }
  | .call c => (s.console.mapDisplay? (·.perform? c)).map fun console => { s with console }
  | .compose width height plane1 plane2 =>
    some { s with frames := s.frames ++ (Frame.ofPlanes? width height plane1 plane2).toList }
  | .take index =>
    (s.console.context.display.frame.copyInto? (s.recycled index)).map fun frame =>
      { s with frames := s.frames ++ [frame] }

def run? : List Act → Session → Option Session
  | [], s => some s
  | a :: as, s => do run? as (← s.perform? a)

namespace WellFormed

variable {s : Session}

theorem perform?_eq (h : s.WellFormed) (a : Act) : s.perform? a = some (s.perform a) := by
  cases a with
  | move m =>
    rw [perform?, h.console.perform?_eq]
    rfl
  | call c =>
    rw [perform?, Console.WellFormed.mapDisplay?_eq (h.console.display.perform?_eq c)]
    rfl
  | compose => rfl
  | take index =>
    rw [perform?, Frame.copyInto?_eq h.console.display.frame (h.recycled index)]
    rfl

theorem run?_eq (h : s.WellFormed) (as : List Act) : run? as s = some (Session.run as s) := by
  induction as generalizing s with
  | nil => rfl
  | cons a as ih =>
    rw [run?, h.perform?_eq]
    exact ih (h.perform a)

end WellFormed

/-- Whatever a host does with a machine just made, its data keep their sizes, and no access to an
    array was out of range on the way. -/
theorem run_bounded {c : Console} (h : c.Started) (as : List Act) :
    (run as { console := c }).console.Bounded ∧
      run? as { console := c } = some (run as { console := c }) := by
  have start := wellFormed_start h
  exact ⟨(start.run as).console.bounded, start.run?_eq as⟩

/-- A program that draws a glyph and stops, while its host draws over the edge of the screen, scrolls
    too far and takes two pictures. -/
theorem run_bounded_drawing :
    ∃ state, State.load [0xD0, 0x15, 0x00, 0xFD] 0 = .ok state ∧
      let s : Session := { console := ⟨{ state, dialect := {}, random := .ofSeed 0 }, {}⟩ }
      let as : List Act :=
        [.move (.tick 5), .call (.draw 0xFFFFFFFFFFFFFFFF 31 [0xFF] 1), .call (.scrollDown 255),
          .take none, .take (some 0)]
      (run as s).console.Bounded ∧ run? as s = some (run as s) := by
  obtain ⟨state, loaded⟩ : ∃ state, State.load [0xD0, 0x15, 0x00, 0xFD] 0 = .ok state := ⟨_, rfl⟩
  exact ⟨state, loaded, run_bounded (.loaded {} (.ofSeed 0) {} loaded) _⟩

end Session

end XoChip
