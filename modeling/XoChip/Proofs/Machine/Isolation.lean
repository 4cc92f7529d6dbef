import XoChip.Proofs.Access.State
import XoChip.Proofs.Alike
import XoChip.Proofs.Machine.Dialect
import XoChip.Proofs.Machine.Trace

/-!
# What a step leaves alone

Every part of a machine and of its surroundings has its own instructions: `Part.Touched` lists, by
word, those that may change it, and a step at any other word leaves it as it was. Sound requests and
random bytes are counted exactly, and a step looks at the keypad only if it is about keys.
-/

namespace XoChip

/-! ## Footprints -/

/-- How many bytes an instruction stores, the first of them at `I`. These are `5XY2`, `FX33` and
    `FX55`. -/
def Word.storeCount (w : UInt16) : Nat :=
  if family w = 0x5 ∧ n w = 0x2 then max (x w).val (y w).val - min (x w).val (y w).val + 1
  else if family w = 0xF ∧ nn w = 0x33 then 3
  else if family w = 0xF ∧ nn w = 0x55 then (x w).val + 1
  else 0

/-- The words whose instructions look at the keypad: `EX9E`, `EXA1` and `FX0A`. -/
def Word.ReadsKeys (w : UInt16) : Prop :=
  family w = 0xE ∧ (nn w = 0x9E ∨ nn w = 0xA1) ∨ family w = 0xF ∧ nn w = 0x0A

/-- Something that a step leaves alone, unless its instruction is one of those that change it. -/
inductive Part
  | byte (a : UInt16)
  | stack
  | flag (r : Register)
  | index
  /-- The pixels of the display and its mode. -/
  | picture
  | selection
  | delay
  | keypad
  deriving DecidableEq, Repr

namespace Part

/-- The words whose instructions may change a part. What is stored goes to the index register `i`
    and the addresses behind it. -/
def Touched (w i : UInt16) : Part → Prop
  | byte a => ∃ k, k < Word.storeCount w ∧ a = i + UInt16.ofNat k
  | stack => Word.family w = 0x2 ∨ w = 0x00EE
  | flag r => Word.family w = 0xF ∧ Word.nn w = 0x75 ∧ r ≤ Word.x w
  | index =>
    Word.family w = 0xA ∨ w = 0xF000 ∨
      Word.family w = 0xF ∧ (Word.nn w = 0x1E ∨ Word.nn w = 0x29 ∨ Word.nn w = 0x30)
  | picture =>
    Word.family w = 0xD ∨ w ∈ [0x00E0, 0x00FB, 0x00FC, 0x00FE, 0x00FF] ∨
      Word.family w = 0x0 ∧ Word.x w = 0x0 ∧ (Word.y w = 0xC ∨ Word.y w = 0xD)
  | selection => Word.family w = 0xF ∧ Word.nn w = 0x01
  | delay => Word.family w = 0xF ∧ Word.nn w = 0x15
  | keypad => False

instance decidableTouched (w i : UInt16) : (part : Part) → Decidable (part.Touched w i)
  | byte _ => inferInstanceAs (Decidable (∃ k, k < _ ∧ _))
  | stack | picture => inferInstanceAs (Decidable (_ ∨ _))
  | index => inferInstanceAs (Decidable (_ ∨ _))
  | flag _ | selection | delay => inferInstanceAs (Decidable (_ ∧ _))
  | keypad => inferInstanceAs (Decidable False)

/-- A part is the same in two machines. For the delay timer this is what it shows now and later. -/
def Same (s t : Console) : Part → Prop
  | byte a => t.state.memory.read a = s.state.memory.read a
  | stack => t.state.stack = s.state.stack
  | flag r => t.state.flags.get r = s.state.flags.get r
  | index => t.state.i = s.state.i
  | picture =>
    t.context.display.frame = s.context.display.frame ∧
      t.context.display.hires = s.context.display.hires
  | selection => t.context.display.selection = s.context.display.selection
  | delay => Timer.AgreeFrom s.now s.state.delay t.state.delay
  | keypad => t.context.keypad = s.context.keypad

end Part

/-! ## Bytes, registers and planes that stay -/

/-- Writing leaves all other addresses alone, also if it wraps around. -/
theorem Memory.read_writeMany_of_ne (m : Memory) {a b : UInt16} {bytes : List UInt8}
    (ne : ∀ k, k < bytes.length → b ≠ a + UInt16.ofNat k) :
    (m.writeMany a bytes).read b = m.read b := by
  have back : b = a + UInt16.ofNat (b - a).toNat := by
    rw [UInt16.ofNat_toNat, UInt16.add_comm, UInt16.sub_add_cancel]
  have far : bytes.length ≤ (b - a).toNat := Nat.le_of_not_lt fun lt => ne _ lt back
  have lt := (b - a).toNat_lt
  rw [read_writeMany _ _ _ (by omega), List.getElem?_eq_none far]
  rfl

/-- The generator after so many more draws. -/
def Random.skip (r : Random) (k : Nat) : Random := { r with drawn := r.drawn + k }

theorem Random.skip_skip (r : Random) (j k : Nat) : (r.skip j).skip k = r.skip (j + k) := by
  rw [skip, skip, skip, Nat.add_assoc]

namespace Console

variable {s t u : Console} {i : Instruction} {part : Part}

/-! ## Frames -/

/-- A byte that is not among those that an instruction stores stays. -/
theorem read_execute (s : Console) (pc : UInt16) {a : UInt16}
    (untouched : ¬ (Part.byte a).Touched i.encode s.state.i) :
    (s.execute pc i).2.state.memory.read a = s.state.memory.read a := by
  have ne : ∀ count, Word.storeCount i.encode = count →
      ∀ k, k < count → a ≠ s.state.i + UInt16.ofNat k := by
    rintro count rfl k lt rfl
    exact untouched ⟨k, lt, rfl⟩
  rw [state_execute]
  cases i with
  | storeRange x y =>
    apply Memory.read_writeMany_of_ne
    apply ne
    simp [Word.storeCount, Instruction.encode, Register.length_range]
  | storeDecimal x =>
    apply Memory.read_writeMany_of_ne
    apply ne
    simp [Word.storeCount, Instruction.encode]
  | storeRegisters x =>
    apply Memory.read_writeMany_of_ne
    apply ne
    simp [Word.storeCount, Instruction.encode, Registers.length_upTo]
  | _ => rfl

theorem picture_execute (s : Console) (pc : UInt16)
    (untouched : ¬ Part.picture.Touched i.encode s.state.i) :
    Part.picture.Same s (s.execute pc i).2 := by
  rw [Part.Same, display_execute]
  cases i with
  | clear | scrollRight | scrollLeft | lores | hires =>
    exact absurd (.inr (.inl (by decide))) untouched
  | scrollDown | scrollUp =>
    refine absurd (.inr (.inr ⟨Word.family_ofNibbles, Word.x_ofNibbles, ?_⟩)) untouched
    simp [Instruction.encode]
  | draw => exact absurd (.inl Word.family_ofNibbles) untouched
  | _ => exact ⟨rfl, rfl⟩

theorem selection_execute (s : Console) (pc : UInt16)
    (untouched : ¬ Part.selection.Touched i.encode s.state.i) :
    (s.execute pc i).2.context.display.selection = s.context.display.selection := by
  rw [display_execute]
  cases i with
  | clear | scrollDown | scrollUp | scrollRight | scrollLeft =>
    exact Display.selection_mapSelected _ _
  | draw => exact Display.selection_draw _ _ _ _ _
  | selectPlanes => exact absurd ⟨Word.family_ofByte, Word.nn_ofByte⟩ untouched
  | _ => rfl

/-- An instruction that is not about a part leaves it as it was. -/
theorem same_execute (s : Console) (pc : UInt16) (untouched : ¬ part.Touched i.encode s.state.i) :
    part.Same s (s.execute pc i).2 := by
  cases part with
  | byte a => exact read_execute s pc untouched
  | stack =>
    rw [Part.Same, stack_execute]
    cases i with
    | ret => exact absurd (.inr rfl) untouched
    | call => exact absurd (.inl Word.family_ofAddress) untouched
    | _ => rfl
  | flag r =>
    rw [Part.Same, state_execute]
    cases i with
    | saveFlags x =>
      have behind : ¬ r ≤ x := by
        intro le
        refine untouched ⟨Word.family_ofByte, Word.nn_ofByte, ?_⟩
        rw [Instruction.encode, Word.x_ofByte]
        exact le
      show (s.state.flags.setFirst (s.state.v.upTo x)).get r = s.state.flags.get r
      rw [Registers.get_setFirst, if_neg behind]
    | _ => rfl
  | index =>
    rw [Part.Same, state_execute]
    cases i with
    | setIndex => exact absurd (.inl Word.family_ofAddress) untouched
    | setIndexLong => exact absurd (.inr (.inl rfl)) untouched
    | addIndex | smallGlyph | largeGlyph =>
      refine absurd (.inr (.inr ⟨Word.family_ofByte, ?_⟩)) untouched
      simp [Instruction.encode]
    | _ => rfl
  | picture => exact picture_execute s pc untouched
  | selection => exact selection_execute s pc untouched
  | delay =>
    rw [Part.Same, state_execute]
    cases i with
    -- The timer is brought up to date when it is read, which cannot be noticed.
    | readDelay => exact Timer.agreeFrom_settle _ _
    | setDelay => exact absurd ⟨Word.family_ofByte, Word.nn_ofByte⟩ untouched
    | _ => exact .refl _ _
  | keypad => rw [Part.Same, context_execute]

theorem same_halt (s : Console) (reason : Halt) (part : Part) :
    part.Same s (s.fetch.halt reason).2 := by
  cases part with
  | picture => exact ⟨rfl, rfl⟩
  | delay => exact .refl _ _
  | _ => rfl

theorem same_of_fetch (h : part.Same s.fetch t) : part.Same s t := by
  cases part <;> exact h

/-- A step leaves alone what its instruction is not about. -/
theorem same_step (running : s.state.halted = none)
    (untouched : ¬ part.Touched s.state.word s.state.i) : part.Same s s.step.2 := by
  rcases step_cases running with ⟨reason, refused⟩ | ⟨i, stands, -, executed⟩
  · rw [refused]
    exact same_halt s reason part
  · rw [← Instruction.encode_of_decode? stands] at untouched
    rw [executed]
    exact same_of_fetch (same_execute s.fetch s.state.pc untouched)

/-! ## Sound requests -/

/-- What the next step asks the sound sink for: `F002`, `FX18` and `FX3A` have a request each. -/
def request? (s : Console) : Option SoundRequest :=
  let w := s.state.word
  if w = 0xF002 then some (.setPattern (.ofBytes (s.state.memory.readMany s.state.i 16)))
  else if Word.family w = 0xF ∧ Word.nn w = 0x18 then some (.play (s.state.get (Word.x w)))
  else if Word.family w = 0xF ∧ Word.nn w = 0x3A then
    some (.setRate (pitchRate (s.state.get (Word.x w))))
  else none

theorem sounds_execute (s : Console) (pc : UInt16) (i : Instruction) :
    (s.execute pc i).2.context.sounds = s.context.sounds ++
      match i with
      | .loadPattern => [.setPattern (.ofBytes (s.state.memory.readMany s.state.i 16))]
      | .playSound x => [.play (s.state.get x)]
      | .setPitch x => [.setRate (pitchRate (s.state.get x))]
      | _ => [] := by
  rw [context_execute, Context.sounds, Context.sounds, Array.toList_append, List.filterMap_append]
  cases i <;> rfl

theorem sounds_step (running : s.state.halted = none) :
    s.step.2.context.sounds = s.context.sounds ++ s.request?.toList := by
  have fetched : s.fetch.context.sounds = s.context.sounds := Context.sounds_tell _
  unfold request?
  dsimp only
  split
  · next hw =>
    have stands : Instruction.decode? s.state.word = some .loadPattern := by rw [hw]; rfl
    rw [step_of_stands running stands trivial, sounds_execute, fetched]
    rfl
  split
  · next hw =>
    have stands : Instruction.decode? s.state.word = some (.playSound (Word.x s.state.word)) :=
      Instruction.decode?_eq_some_iff.2 ⟨Word.ofByte_of hw.1 rfl hw.2, trivial⟩
    rw [step_of_stands running stands trivial, sounds_execute, fetched]
    rfl
  split
  · next hw =>
    have stands : Instruction.decode? s.state.word = some (.setPitch (Word.x s.state.word)) :=
      Instruction.decode?_eq_some_iff.2 ⟨Word.ofByte_of hw.1 rfl hw.2, trivial⟩
    rw [step_of_stands running stands trivial, sounds_execute, fetched]
    rfl
  · next no_pattern no_sound no_pitch =>
    rw [Option.toList_none, List.append_nil]
    rcases step_cases running with ⟨reason, refused⟩ | ⟨i, stands, -, executed⟩
    · rw [refused]
      exact (Context.sounds_tell _).trans fetched
    · have written := Instruction.encode_of_decode? stands
      rw [executed, sounds_execute, fetched]
      split
      · exact absurd written.symm no_pattern
      · exact absurd (written ▸ ⟨Word.family_ofByte, Word.nn_ofByte⟩) no_sound
      · exact absurd (written ▸ ⟨Word.family_ofByte, Word.nn_ofByte⟩) no_pitch
      · exact List.append_nil _

/-! ## Keys -/

/-- The same machine with another keypad. -/
def withKeypad (s : Console) (p : Keypad) : Console :=
  { s with context := { s.context with keypad := p } }

theorem execute_withKeypad (s : Console) (p : Keypad) (pc : UInt16)
    (unread : ¬ Word.ReadsKeys i.encode) :
    (s.withKeypad p).execute pc i = ((s.execute pc i).1, (s.execute pc i).2.withKeypad p) := by
  cases i with
  | skipIfKey | skipUnlessKey | awaitKey =>
    refine absurd ?_ unread
    simp [Word.ReadsKeys, Instruction.encode]
  | _ => rfl

/-- A step that is not about keys goes the same way whatever has been pressed. -/
theorem step_withKeypad (running : s.state.halted = none) (unread : ¬ Word.ReadsKeys s.state.word)
    (p : Keypad) : (s.withKeypad p).step = (s.step.1, s.step.2.withKeypad p) := by
  have running' : (s.withKeypad p).state.halted = none := running
  cases hn : s.state.next with
  | error reason =>
    have hn' : (s.withKeypad p).state.next = .error reason := hn
    rw [step_of_error running hn, step_of_error running' hn']
    rfl
  | ok i =>
    have hn' : (s.withKeypad p).state.next = .ok i := hn
    rw [← Instruction.encode_of_decode? (State.judge_eq_ok_iff.1 hn).1] at unread
    rw [step_of_ok running hn, step_of_ok running' hn']
    exact execute_withKeypad s.fetch p s.state.pc unread

/-! ## Random bytes -/

/-- How many of the executed instructions are `CXNN`. -/
def draws (executed : List (UInt16 × UInt16)) : Nat :=
  executed.countP fun (_, word) => Word.family word = 0xC

/-- The random generator gives a byte to each `CXNN` and to nothing else. -/
theorem random_step (running : s.state.halted = none) :
    s.step.2.machine.random =
      if Word.family s.state.word = 0xC then s.machine.random.next.2 else s.machine.random := by
  split
  · next family =>
    rw [step_of_stands running (Instruction.decode?_of_family_random family) trivial,
      machine_execute]
    rfl
  · next family =>
    rcases step_cases running with ⟨reason, refused⟩ | ⟨i, stands, -, executed⟩
    · rw [refused]
      rfl
    · rw [executed, machine_execute]
      dsimp only
      split
      · rw [← Instruction.encode_of_decode? stands] at family
        exact absurd Word.family_ofByte family
      · rfl

/-- From `s` to `t`, the random generator has given a byte to every `CXNN` that was executed. -/
def Draws (s t : Console) (executed : List (UInt16 × UInt16)) : Prop :=
  t.context.executed = s.context.executed ++ executed ∧
    t.machine.random = s.machine.random.skip (draws executed)

theorem traceable_draws :
    Traceable fun s t es => t.machine.random = s.machine.random.skip (draws es) where
  quiet := by
    rintro s t ⟨-, v, pc, machine⟩
    rw [machine]
    rfl
  step := by
    intro s running
    rw [random_step running, draws, List.countP_singleton]
    simp only [decide_eq_true_eq]
    split <;> rfl
  trans := by
    intro s t u es fs first rest
    rw [rest, first, Random.skip_skip, draws, draws, draws, List.countP_append]

theorem draws_run (ms : List Move) (s : Console) : ∃ es, Draws s (run ms s) es :=
  traceable_draws.traced_run ms s

/-- A `CXNN` puts the next byte, masked, into its register. -/
theorem v_step_of_random (running : s.state.halted = none)
    (family : Word.family s.state.word = 0xC) :
    s.step.2.state.v =
      (s.state.set (Word.x s.state.word)
        (s.machine.random.next.1 &&& Word.nn s.state.word)).v := by
  rw [step_of_stands running (Instruction.decode?_of_family_random family) trivial]
  rfl

/-- Every instruction minds its own business. A step leaves alone what its instruction is not about,
    asks the sound sink for what it has to and for nothing else, draws a random byte exactly for
    `CXNN`, and does not depend on the keypad unless it is about keys. Along any run, the `CXNN`
    that `k` others have gone before gets byte `k` of the generator's stream, masked; a batch is a
    number of steps, so taking the run step by step comes by each of them. -/
theorem step_isolated (s : Console) :
    (s.state.halted = none →
      (∀ part : Part, ¬ part.Touched s.state.word s.state.i → part.Same s s.step.2) ∧
      s.step.2.context.sounds = s.context.sounds ++ s.request?.toList ∧
      (s.step.2.machine.random =
        if Word.family s.state.word = 0xC then s.machine.random.next.2 else s.machine.random) ∧
      (¬ Word.ReadsKeys s.state.word →
        ∀ p, (s.withKeypad p).step = (s.step.1, s.step.2.withKeypad p))) ∧
    ∀ ms, ∃ es,
      let t := run ms s
      let w := t.state.word
      let b := Random.byte s.machine.random.key (s.machine.random.drawn + draws es)
      t.context.executed = s.context.executed ++ es ∧
        t.machine.random = s.machine.random.skip (draws es) ∧
        (t.state.halted = none → Word.family w = 0xC →
          t.step.2.state.v = (t.state.set (Word.x w) (b &&& Word.nn w)).v) := by
  constructor
  · intro running
    exact ⟨fun part untouched => same_step running untouched, sounds_step running,
      random_step running, fun unread p => step_withKeypad running unread p⟩
  · intro ms
    obtain ⟨es, executed, random⟩ := draws_run ms s
    refine ⟨es, executed, random, ?_⟩
    intro running family
    rw [v_step_of_random running family, random]
    rfl

/-- `F355` with `I` two bytes before the end of memory, and two random bytes after it. -/
theorem step_isolated_wraps :
    let s := (ready [0xF0, 0x00, 0xFF, 0xFE, 0xF3, 0x55, 0xC1, 0x0F, 0xC2, 0xF0]
      Registers.blank).step.2
    let t := run [.step, .tick 1] s
    s.state.halted = none ∧ s.state.i = 0xFFFE ∧
      s.step.2.state.memory.read 0x0002 = s.state.memory.read 0x0002 ∧
      s.step.2.state.memory.read 0xFFFD = s.state.memory.read 0xFFFD ∧
      s.step.2.state.stack = s.state.stack ∧ s.step.2.context.sounds = s.context.sounds ∧
      t.step.2.state.v = (t.state.set 2 (Random.byte (Random.keyOfSeed 0) 1 &&& 0xF0)).v := by
  intro s t
  obtain ⟨running, word_eq, index_eq, seeded⟩ : s.state.halted = none ∧ s.state.word = 0xF355 ∧
      s.state.i = 0xFFFE ∧ s.machine.random = .ofSeed 0 := by
    decide +kernel
  obtain ⟨single, along⟩ := step_isolated s
  obtain ⟨same, sounds, -, -⟩ := single running
  have stays : ∀ part : Part, ¬ part.Touched 0xF355 0xFFFE → part.Same s s.step.2 := by
    intro part untouched
    apply same
    rw [word_eq, index_eq]
    exact untouched
  have quiet : s.request? = none := by
    rw [request?, word_eq]
    rfl
  rw [quiet, Option.toList_none, List.append_nil] at sounds
  obtain ⟨running_t, word_t, told⟩ : t.state.halted = none ∧ t.state.word = 0xC2F0 ∧
      t.context.executed = s.context.executed ++ [(0x204, 0xF355), (0x206, 0xC10F)] := by
    decide +kernel
  -- All that has to be known of the last machine is known, so that nothing computes it again.
  have along_t := along [.step, .tick 1]
  rw [show run [.step, .tick 1] s = t from rfl] at along_t
  clear_value t
  obtain ⟨es, executed, -, gets⟩ := along_t
  have one : draws es = 1 := by
    rw [List.append_cancel_left (executed.symm.trans told)]
    rfl
  rw [word_t, one, seeded] at gets
  exact ⟨running, index_eq, stays (.byte 0x0002) (by decide), stays (.byte 0xFFFD) (by decide),
    stays .stack (by decide), sounds, gets running_t rfl⟩

end Console

end XoChip
