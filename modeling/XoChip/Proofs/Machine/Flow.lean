import XoChip.Proofs.Keypad.Held
import XoChip.Proofs.Machine.Calls

/-!
# Where a program goes on

A step puts the program counter behind the instruction before it executes it, and jumps, calls,
returns and skips move it from there. `Console.pc_execute` says by instruction where it ends up,
`Console.flow_exact` by word. The word is the one that is there when the step begins, whatever the
instruction writes over it.
-/

namespace XoChip

/-! ## By instruction -/

/-- The words that do not just go on behind themselves or behind the next word: `1NNN`, `2NNN`,
    `00EE` and `BNNN`; and `F000`, whose second word is an operand. -/
def Word.Departs (w : UInt16) : Prop :=
  family w = 0x1 ∨ family w = 0x2 ∨ w = 0x00EE ∨ family w = 0xB ∨ w = 0xF000

instance (w : UInt16) : Decidable (Word.Departs w) := inferInstanceAs (Decidable (_ ∨ _))

namespace Console

variable {s : Console} {i : Instruction}

/-- Whether an instruction passes over the next word. -/
def skips (s : Console) : Instruction → Bool
  | .skipIfByte x nn => s.state.get x == nn
  | .skipUnlessByte x nn => s.state.get x != nn
  | .skipIfEqual x y => s.state.get x == s.state.get y
  | .skipUnlessEqual x y => s.state.get x != s.state.get y
  | .skipIfKey x => s.context.keypad.isPressed (s.state.get x)
  | .skipUnlessKey x => !s.context.keypad.isPressed (s.state.get x)
  | _ => false

/-- Where an instruction leaves the program counter, which is behind it when it is executed. -/
theorem pc_execute (s : Console) (pc : UInt16) (i : Instruction) :
    (s.execute pc i).2.state.pc =
      match i with
      | .jump nnn | .call nnn => nnn
      | .ret => s.state.stack.top
      | .jumpPlus nnn => (s.state.jumpPlus s.machine.dialect nnn).pc
      | .setIndexLong => s.state.pc + 2
      | .awaitKey _ => pc
      | i => if s.skips i then s.state.pc + 2 else s.state.pc := by
  cases i with
  | alu op x y =>
    have same : (s.state.alu s.machine.dialect op x y).pc = s.state.pc := by rw [State.alu_eq]
    exact same
  | skipIfByte | skipUnlessByte | skipIfEqual | skipUnlessEqual | skipIfKey | skipUnlessKey =>
    exact congrArg State.pc (s.state.skipIf_eq _)
  | loadRegisters | saveFlags | loadFlags =>
    simp only [execute, mapState, state, State.loadRegisters, State.saveFlags, State.loadFlags,
      skips, Bool.false_eq_true, if_false]
  | _ => rfl

/-- An instruction that does not depart goes on behind itself or behind the next word. -/
theorem pc_execute_of_not_departs (s : Console) (pc : UInt16) (stays : ¬ Word.Departs i.encode)
    (ran : (s.execute pc i).1 = .ran) :
    (s.execute pc i).2.state.pc = if s.skips i then s.state.pc + 2 else s.state.pc := by
  rw [pc_execute]
  cases i with
  | jump => exact absurd (.inl Word.family_ofAddress) stays
  | call => exact absurd (.inr (.inl Word.family_ofAddress)) stays
  | ret => exact absurd (.inr (.inr (.inl rfl))) stays
  | jumpPlus => exact absurd (.inr (.inr (.inr (.inl Word.family_ofAddress)))) stays
  | setIndexLong => exact absurd (.inr (.inr (.inr (.inr rfl)))) stays
  | awaitKey => cases ran
  | _ => rfl

/-! ## By word -/

/-- The conditions on which a word passes over the next one: those of `3XNN`, `4XNN`, `5XY0`,
    `9XY0`, `EX9E` and `EXA1`. -/
def Skips (s : Console) (w : UInt16) : Prop :=
  let vx := s.state.get (Word.x w)
  let vy := s.state.get (Word.y w)
  let held := vx.toNat < 16 ∧ s.context.keypad.mask.toNat.testBit vx.toNat = true
  Word.family w = 0x3 ∧ vx = Word.nn w ∨
    Word.family w = 0x4 ∧ vx ≠ Word.nn w ∨
    Word.family w = 0x5 ∧ Word.n w = 0x0 ∧ vx = vy ∨
    Word.family w = 0x9 ∧ Word.n w = 0x0 ∧ vx ≠ vy ∨
    Word.family w = 0xE ∧ Word.nn w = 0x9E ∧ held ∨
    Word.family w = 0xE ∧ Word.nn w = 0xA1 ∧ ¬ held

instance (s : Console) (w : UInt16) : Decidable (s.Skips w) := inferInstanceAs (Decidable (_ ∨ _))

/-- A word passes over the next one where its instruction does. -/
theorem skips_encode_iff (s : Console) (i : Instruction) :
    s.Skips i.encode ↔ s.skips i = true := by
  cases i with
  | skipIfKey x => simp [Skips, skips, Instruction.encode, Keypad.isPressed_iff]
  | skipUnlessKey x =>
    rw [skips, Bool.not_eq_true', ← Bool.not_eq_true, Keypad.isPressed_iff]
    simp [Skips, Instruction.encode]
  | _ => simp [Skips, skips, Instruction.encode]

/-- A step that runs executes the instruction that its word stands for. -/
theorem executed_of_ran (ran : s.step.1 = .ran)
    (stands : Instruction.decode? s.state.word = some i) :
    s.state.Admits i ∧ s.step = s.fetch.execute s.state.pc i := by
  have goes_on : s.halts = false := by rw [halts, ran]
  obtain ⟨j, stands', admits, executed⟩ := executed_of_halts goes_on
  rw [stands] at stands'
  cases stands'
  exact ⟨admits, executed⟩

theorem pc_step_of_stands (ran : s.step.1 = .ran)
    (stands : Instruction.decode? s.state.word = some i) :
    s.step.2.state.pc = (s.fetch.execute s.state.pc i).2.state.pc := by
  rw [(executed_of_ran ran stands).2]

/-- Jumps and calls go to their operand. -/
theorem pc_step_of_goto (ran : s.step.1 = .ran)
    (goes : Word.family s.state.word = 0x1 ∨ Word.family s.state.word = 0x2) :
    s.step.2.state.pc = Word.nnn s.state.word := by
  rcases goes with jumps | calls
  · rw [pc_step_of_stands ran (Instruction.decode?_eq_jump_iff.2 ⟨jumps, rfl⟩), pc_execute]
  · rw [pc_step_of_stands ran (Instruction.decode?_eq_call_iff.2 ⟨calls, rfl⟩), pc_execute]

/-- Returns go to the top of the call stack, which is the newest address on it. -/
theorem pc_step_of_ret (ran : s.step.1 = .ran) (returns : s.state.word = 0x00EE) :
    s.step.2.state.pc = s.state.stack.top ∧
      (s.state.stack.depth ≤ CallStack.capacity →
        s.state.stack.toList.getLast? = some s.step.2.state.pc) := by
  have stands := Instruction.decode?_eq_ret_iff.2 returns
  rw [pc_step_of_stands ran stands, pc_execute]
  exact ⟨rfl, CallStack.getLast?_toList (executed_of_ran ran stands).1⟩

theorem pc_step_of_jumpPlus (ran : s.step.1 = .ran) (jumps : Word.family s.state.word = 0xB) :
    s.step.2.state.pc = Word.nnn s.state.word + (s.state.get
      (if s.machine.dialect.jumpByVX then Word.x s.state.word else 0)).toUInt16 := by
  have stands : Instruction.decode? s.state.word = some (.jumpPlus (Word.nnn s.state.word)) :=
    Instruction.decode?_eq_some_iff.2 ⟨Word.ofAddress_of jumps, Word.toNat_nnn_lt _⟩
  rw [pc_step_of_stands ran stands, pc_execute, ← Word.x_nnn s.state.word]
  rfl

theorem step_of_setIndexLong (ran : s.step.1 = .ran) (loads : s.state.word = 0xF000) :
    s.step.2.state.pc = s.state.pc + 2 + 2 ∧
      s.step.2.state.i = s.state.memory.readWord (s.state.pc + 2) := by
  have stands : Instruction.decode? s.state.word = some .setIndexLong := by rw [loads]; rfl
  constructor
  · rw [pc_step_of_stands ran stands, pc_execute]
    rfl
  · rw [(executed_of_ran ran stands).2, state_execute]
    rfl

/-- Words that do not depart go on behind themselves or behind the next word. -/
theorem pc_step_of_not_departs (ran : s.step.1 = .ran) (stays : ¬ Word.Departs s.state.word) :
    s.step.2.state.pc = if s.Skips s.state.word then s.state.pc + 2 + 2 else s.state.pc + 2 := by
  have goes_on : s.halts = false := by rw [halts, ran]
  obtain ⟨i, stands, -, executed⟩ := executed_of_halts goes_on
  have written := Instruction.encode_of_decode? stands
  have skips_iff : s.Skips s.state.word ↔ s.skips i = true := by
    rw [← skips_encode_iff, written]
  rw [executed] at ran ⊢
  rw [pc_execute_of_not_departs s.fetch s.state.pc (written ▸ stays) ran]
  simp only [skips_iff]
  rfl

/-- Where a step that runs goes on, by the word at the program counter as it was before the step.
    Of the words that do not depart, those that skip pass over the next word, and all others go on
    behind themselves. -/
theorem flow_exact (ran : s.step.1 = .ran) :
    let a := s.state.pc
    let m := s.state.memory
    let w := Word.ofBytes (m.read a) (m.read (a + 1))
    let t := s.step.2.state
    (Word.family w = 0x1 ∨ Word.family w = 0x2 → t.pc = Word.nnn w) ∧
    (w = 0x00EE → t.pc = s.state.stack.top ∧
      (s.state.stack.depth ≤ CallStack.capacity →
        s.state.stack.toList.getLast? = some t.pc)) ∧
    (Word.family w = 0xB →
      t.pc = Word.nnn w +
        (s.state.get (if s.machine.dialect.jumpByVX then Word.x w else 0)).toUInt16) ∧
    (w = 0xF000 → t.pc = a + 4 ∧ t.i = Word.ofBytes (m.read (a + 2)) (m.read (a + 3))) ∧
    (¬ Word.Departs w → (t.pc = a + 4 ↔ s.Skips w) ∧ (t.pc = a + 2 ↔ ¬ s.Skips w)) := by
  intro a m w t
  have far : a + 2 + 2 = a + 4 := by rw [UInt16.add_assoc]; rfl
  refine ⟨pc_step_of_goto ran, pc_step_of_ret ran, pc_step_of_jumpPlus ran, ?_, ?_⟩
  · intro loads
    have next : a + 2 + 1 = a + 3 := by rw [UInt16.add_assoc]; rfl
    obtain ⟨pc_eq, i_eq⟩ := step_of_setIndexLong ran loads
    rw [← far, ← next]
    exact ⟨pc_eq, i_eq⟩
  · intro stays
    have pc_eq : t.pc = if s.Skips w then a + 2 + 2 else a + 2 := pc_step_of_not_departs ran stays
    have apart : a + 4 ≠ a + 2 := by
      intro same
      cases (UInt16.add_right_inj a).1 same
    rw [pc_eq, far]
    by_cases skips : s.Skips w
    · simp [skips, apart]
    · simp [skips, apart.symm]

/-- `F155` across the end of memory, which writes `1234` over itself, and `E09E` with a held key
    just before the end. -/
theorem flow_exact_at_end :
    let s (a : UInt16) (bytes : List UInt8) (v : Registers) : Console :=
      { machine :=
          { state :=
              { v, memory := Memory.blank.writeMany a bytes, i := a, pc := a, delay := .expired 0 }
            dialect := {}, random := .ofSeed 0 }
        context := { keypad := Keypad.press {} 5 } }
    let stores := s 0xFFFF [0xF1, 0x55] (Registers.blank.setMany [(0, 0x12), (1, 0x34)])
    let skips := s 0xFFFD [0xE0, 0x9E] (Registers.blank.setMany [(0, 5)])
    stores.step.1 = .ran ∧ stores.step.2.state.memory.readWord 0xFFFF = 0x1234 ∧
      stores.step.2.state.pc = 0x0001 ∧
      skips.step.1 = .ran ∧ skips.step.2.state.pc = 0x0001 := by
  intro s stores skips
  have stores_word : stores.state.word = 0xF155 := by
    simp [stores, s, State.word, Memory.readWord, Memory.writeMany, Memory.read_write]
  have skips_word : skips.state.word = 0xE09E := by
    simp [skips, s, State.word, Memory.readWord, Memory.writeMany, Memory.read_write]
  have stores_stands : Instruction.decode? stores.state.word = some (.storeRegisters 1) := by
    rw [stores_word]
    rfl
  have skips_stands : Instruction.decode? skips.state.word = some (.skipIfKey 0) := by
    rw [skips_word]
    rfl
  have stored := step_of_stands rfl stores_stands trivial
  have skipped := step_of_stands rfl skips_stands trivial
  have stores_ran : stores.step.1 = .ran := by rw [stored, outcome_execute]
  have skips_ran : skips.step.1 = .ran := by rw [skipped, outcome_execute]
  obtain ⟨-, -, -, -, stores_on⟩ := flow_exact stores_ran
  obtain ⟨-, -, -, -, skips_on⟩ := flow_exact skips_ran
  have stores_next : stores.step.2.state.pc = 0xFFFF + 2 := by
    have stays : ¬ Word.Departs stores.state.word := by rw [stores_word]; decide
    refine (stores_on stays).2.2 ?_
    show ¬ stores.Skips stores.state.word
    rw [stores_word]
    decide +kernel
  have skips_next : skips.step.2.state.pc = 0xFFFD + 4 := by
    have stays : ¬ Word.Departs skips.state.word := by rw [skips_word]; decide
    refine (skips_on stays).1.2 ?_
    show skips.Skips skips.state.word
    rw [skips_word]
    decide +kernel
  refine ⟨stores_ran, ?_, stores_next, skips_ran, skips_next⟩
  have values :
      Registers.upTo (Registers.blank.setMany [(0, 0x12), (1, 0x34)]) 1 = [0x12, 0x34] := by
    decide
  rw [stored, state_execute]
  show (Memory.writeMany _ 0xFFFF
    (Registers.upTo (Registers.blank.setMany [(0, 0x12), (1, 0x34)]) 1)).readWord 0xFFFF = 0x1234
  rw [values]
  simp [Memory.readWord, Memory.writeMany, Memory.read_write]

end Console

end XoChip
