import XoChip.Proofs.Instruction.Encoding
import XoChip.Proofs.Machine.Step

/-!
# How a step ends

Whether a step halts, waits or runs on, and for which reason it halts, is decided by the word at
the program counter, its address and the depth of the call stack. `State.Refuses` lists the
reasons by instruction, `Console.step_outcome_iff` by word.
-/

namespace XoChip

/-! ## Which instructions are refused -/

namespace State

/-- The reason for which a program stops at a word. -/
inductive Refuses (s : State) (w : UInt16) : Halt → Prop
  | illegal : Instruction.decode? w = none → Refuses s w (.illegal s.pc w)
  | exit : Instruction.decode? w = some .exit → Refuses s w (.exit s.pc)
  | underflow : Instruction.decode? w = some .ret → s.stack.isEmpty = true →
      Refuses s w (.underflow s.pc)
  | overflow {nnn : UInt16} : Instruction.decode? w = some (.call nnn) → s.stack.isFull = true →
      Refuses s w (.overflow s.pc)
  | spinJump : Instruction.decode? w = some (.jump s.pc) → Refuses s w (.spin s.pc)
  | spinCall : Instruction.decode? w = some (.call s.pc) → s.stack.isFull = false →
      Refuses s w (.spin s.pc)
  | badPlane {n : Fin 16} : Instruction.decode? w = some (.selectPlanes n) → 3 < n →
      Refuses s w (.badPlane s.pc (UInt8.ofNat n.val))

variable {s : State} {w : UInt16} {reason : Halt}

theorem refuses_of_judge (h : s.judge w = .error reason) : s.Refuses w reason := by
  unfold judge at h
  cases hw : Instruction.decode? w with
  | none =>
    rw [hw] at h
    cases h
    exact .illegal hw
  | some i =>
    rw [hw] at h
    cases i with
    | exit =>
      cases h
      exact .exit hw
    | ret =>
      dsimp only at h
      split at h
      · next empty =>
        cases h
        exact .underflow hw empty
      · cases h
    | jump nnn =>
      dsimp only at h
      split at h
      · next spins =>
        cases h
        exact .spinJump (spins ▸ hw)
      · cases h
    | call nnn =>
      dsimp only at h
      split at h
      · next full =>
        cases h
        exact .overflow hw full
      · next free =>
        split at h
        · next spins =>
          cases h
          exact .spinCall (spins ▸ hw) (Bool.eq_false_iff.2 free)
        · cases h
    | selectPlanes n =>
      dsimp only at h
      split at h
      · cases h
      · next unknown =>
        cases h
        exact .badPlane hw (Fin.not_le.1 unknown)
    | _ => cases h

theorem judge_of_refuses (h : s.Refuses w reason) : s.judge w = .error reason := by
  cases h with
  | illegal hw => simp only [judge, hw]
  | exit hw => simp only [judge, hw]
  | underflow hw empty => simp only [judge, hw, empty, if_true]
  | overflow hw full => simp only [judge, hw, full, if_true]
  | spinJump hw => simp only [judge, hw, if_true]
  | spinCall hw free => simp only [judge, hw, free, Bool.false_eq_true, if_false, if_true]
  | badPlane hw unknown => simp only [judge, hw, if_neg (Fin.not_le.2 unknown)]

/-- A program stops at a word exactly for the reasons to refuse it. -/
theorem judge_eq_error_iff : s.judge w = .error reason ↔ s.Refuses w reason :=
  ⟨refuses_of_judge, judge_of_refuses⟩

/-- A program is stopped by the instruction at the program counter. -/
theorem Refuses.pc_eq (h : s.Refuses w reason) : reason.pc = s.pc := by
  cases h <;> rfl

end State

/-! ## The refused words -/

namespace Instruction

open Word

variable {w nnn : UInt16} {k : Fin 16}

theorem decode?_eq_exit_iff : decode? w = some .exit ↔ w = 0x00FD := by
  rw [decode?_eq_some_iff, show encode .exit = 0x00FD by decide]
  simp [Fits, eq_comm]

theorem decode?_eq_ret_iff : decode? w = some .ret ↔ w = 0x00EE := by
  rw [decode?_eq_some_iff, show encode .ret = 0x00EE by decide]
  simp [Fits, eq_comm]

theorem decode?_eq_jump_iff : decode? w = some (.jump nnn) ↔ family w = 0x1 ∧ Word.nnn w = nnn := by
  rw [decode?_eq_some_iff]
  exact ofAddress_eq_iff

theorem decode?_eq_call_iff : decode? w = some (.call nnn) ↔ family w = 0x2 ∧ Word.nnn w = nnn := by
  rw [decode?_eq_some_iff]
  exact ofAddress_eq_iff

theorem decode?_eq_selectPlanes_iff :
    decode? w = some (.selectPlanes k) ↔ w = ofNibbles 0xF k 0x0 0x1 := by
  rw [decode?_eq_some_iff]
  simp only [encode, ofByte, Fits, and_true, eq_comm]
  rfl

theorem decode?_eq_awaitKey_iff :
    decode? w = some (.awaitKey k) ↔ w = ofNibbles 0xF k 0x0 0xA := by
  rw [decode?_eq_some_iff]
  simp only [encode, ofByte, Fits, and_true, eq_comm]
  rfl

/-- Every word of the family is a random byte. -/
theorem decode?_of_family_random (h : family w = 0xC) :
    decode? w = some (.random (x w) (nn w)) :=
  decode?_eq_some_iff.2 ⟨ofByte_of h rfl rfl, trivial⟩

/-- Every word of the family is a sprite. -/
theorem decode?_of_family_draw (h : family w = 0xD) : decode? w = some (.draw (x w) (y w) (n w)) :=
  decode?_eq_some_iff.2 ⟨ofNibbles_of h rfl, trivial⟩

end Instruction

namespace State

variable {s : State} {w : UInt16}

theorem refuses_illegal_iff : s.Refuses w (.illegal s.pc w) ↔ Mnemonic.ofWord? w = none := by
  rw [Mnemonic.ofWord?_eq_none_iff]
  constructor
  · rintro ⟨hw⟩
    exact hw
  · exact .illegal

theorem refuses_exit_iff : s.Refuses w (.exit s.pc) ↔ w = 0x00FD := by
  rw [← Instruction.decode?_eq_exit_iff]
  constructor
  · rintro ⟨⟩
    assumption
  · exact .exit

theorem refuses_underflow_iff :
    s.Refuses w (.underflow s.pc) ↔ w = 0x00EE ∧ s.stack.depth = 0 := by
  rw [← Instruction.decode?_eq_ret_iff, ← beq_iff_eq (a := s.stack.depth)]
  constructor
  · rintro ⟨⟩
    exact ⟨‹_›, ‹_›⟩
  · rintro ⟨hw, empty⟩
    exact .underflow hw empty

theorem refuses_overflow_iff :
    s.Refuses w (.overflow s.pc) ↔ Word.family w = 0x2 ∧ s.stack.depth = 64 := by
  rw [← beq_iff_eq (a := s.stack.depth)]
  constructor
  · intro h
    cases h with
    | overflow hw full => exact ⟨(Instruction.decode?_eq_call_iff.1 hw).1, full⟩
  · rintro ⟨hf, full⟩
    exact .overflow (Instruction.decode?_eq_call_iff.2 ⟨hf, rfl⟩) full

theorem refuses_spin_iff (bounded : s.stack.depth ≤ CallStack.capacity) :
    s.Refuses w (.spin s.pc) ↔
      Word.family w = 0x1 ∧ Word.nnn w = s.pc ∨
        Word.family w = 0x2 ∧ Word.nnn w = s.pc ∧ s.stack.depth < 64 := by
  have free_iff : s.stack.isFull = false ↔ s.stack.depth < 64 := by
    simp only [CallStack.capacity] at bounded
    simp only [CallStack.isFull, CallStack.capacity, beq_eq_false_iff_ne]
    omega
  rw [← free_iff, ← and_assoc, ← Instruction.decode?_eq_jump_iff,
    ← Instruction.decode?_eq_call_iff]
  constructor
  · intro h
    cases h with
    | spinJump hw => exact .inl hw
    | spinCall hw free => exact .inr ⟨hw, free⟩
  · rintro (hw | ⟨hw, free⟩)
    · exact .spinJump hw
    · exact .spinCall hw free

theorem refuses_badPlane_iff {n : Fin 16} :
    s.Refuses w (.badPlane s.pc (UInt8.ofNat n.val)) ↔
      w = Word.ofNibbles 0xF n 0x0 0x1 ∧ 3 < n := by
  rw [← Instruction.decode?_eq_selectPlanes_iff]
  constructor
  · generalize planes_eq : UInt8.ofNat n.val = planes
    intro h
    cases h with
    | @badPlane m hw unknown =>
      have val_eq := congrArg UInt8.toNat planes_eq
      simp only [UInt8.toNat_ofNat'] at val_eq
      obtain rfl : n = m := by
        apply Fin.ext
        omega
      exact ⟨hw, unknown⟩
  · rintro ⟨hw, unknown⟩
    exact .badPlane hw unknown

/-- Nothing keeps a program from waiting for a key. -/
theorem next_eq_awaitKey_iff {x : Register} :
    s.next = .ok (.awaitKey x) ↔ s.word = Word.ofNibbles 0xF x 0x0 0xA := by
  rw [next, judge_eq_ok_iff, Instruction.decode?_eq_awaitKey_iff]
  exact and_iff_left trivial

/-- What a program can stop for at a word. -/
theorem exists_refuses_iff :
    (∃ reason, s.Refuses w reason) ↔
      s.Refuses w (.illegal s.pc w) ∨ s.Refuses w (.exit s.pc) ∨ s.Refuses w (.underflow s.pc) ∨
        s.Refuses w (.overflow s.pc) ∨ s.Refuses w (.spin s.pc) ∨
          ∃ n : Fin 16, s.Refuses w (.badPlane s.pc (UInt8.ofNat n.val)) := by
  constructor
  · rintro ⟨reason, h⟩
    cases h with
    | illegal hw => exact .inl (.illegal hw)
    | exit hw => exact .inr (.inl (.exit hw))
    | underflow hw empty => exact .inr (.inr (.inl (.underflow hw empty)))
    | overflow hw full => exact .inr (.inr (.inr (.inl (.overflow hw full))))
    | spinJump hw => exact .inr (.inr (.inr (.inr (.inl (.spinJump hw)))))
    | spinCall hw free => exact .inr (.inr (.inr (.inr (.inl (.spinCall hw free)))))
    | badPlane hw unknown => exact .inr (.inr (.inr (.inr (.inr ⟨_, .badPlane hw unknown⟩))))
  · rintro (h | h | h | h | h | ⟨n, h⟩)
    all_goals exact ⟨_, h⟩

end State

/-! ## Outcomes -/

namespace Console

variable {s : Console}

/-- Waiting for a key is all that keeps an executed instruction from running on. -/
theorem outcome_execute (s : Console) (pc : UInt16) (i : Instruction) :
    (s.execute pc i).1 =
      match i with
      | .awaitKey x => .awaits ⟨x, pc, s.context.keypad.watch⟩
      | _ => .ran := by
  cases i <;> rfl

theorem step_halts_iff (running : s.state.halted = none) {reason : Halt} :
    s.step.1 = .halts reason ↔ s.state.Refuses s.state.word reason := by
  rw [← State.judge_eq_error_iff, ← State.next]
  cases hn : s.state.next with
  | error cause =>
    rw [step_of_error running hn]
    simp [halt]
  | ok i =>
    rw [step_of_ok running hn, outcome_execute]
    cases i <;> simp

theorem step_awaits_iff (running : s.state.halted = none) {wait : KeyWait} :
    s.step.1 = .awaits wait ↔
      s.state.word = Word.ofNibbles 0xF wait.register 0x0 0xA ∧
        wait = ⟨wait.register, s.state.pc, s.context.keypad.watch⟩ := by
  rw [← State.next_eq_awaitKey_iff]
  cases hn : s.state.next with
  | error cause =>
    rw [step_of_error running hn]
    simp [halt]
  | ok i =>
    rw [step_of_ok running hn, outcome_execute]
    obtain ⟨register, pc, watch⟩ := wait
    cases i <;> simp [fetch, Context.tell, Context.emit, eq_comm]

/-- A step that neither halts nor waits has run. -/
theorem step_ran_iff :
    s.step.1 = .ran ↔
      ¬ ((∃ reason, s.step.1 = .halts reason) ∨ ∃ wait, s.step.1 = .awaits wait) := by
  cases s.step.1 <;> simp

/-- How a step ends, by the word at the program counter. -/
theorem step_outcome_iff (running : s.state.halted = none)
    (bounded : s.state.stack.depth ≤ CallStack.capacity) :
    let a := s.state.pc
    let w := Word.ofBytes (s.state.memory.read a) (s.state.memory.read (a + 1))
    let depth := s.state.stack.depth
    (s.step.1 = .halts (.illegal a w) ↔ Mnemonic.ofWord? w = none) ∧
    (s.step.1 = .halts (.exit a) ↔ w = 0x00FD) ∧
    (s.step.1 = .halts (.underflow a) ↔ w = 0x00EE ∧ depth = 0) ∧
    (s.step.1 = .halts (.overflow a) ↔ Word.family w = 0x2 ∧ depth = 64) ∧
    (s.step.1 = .halts (.spin a) ↔
      Word.family w = 0x1 ∧ Word.nnn w = a ∨ Word.family w = 0x2 ∧ Word.nnn w = a ∧ depth < 64) ∧
    (∀ n : Fin 16, s.step.1 = .halts (.badPlane a (UInt8.ofNat n.val)) ↔
      w = Word.ofNibbles 0xF n 0x0 0x1 ∧ 3 < n) ∧
    (∀ x, s.step.1 = .awaits ⟨x, a, s.context.keypad.watch⟩ ↔ w = Word.ofNibbles 0xF x 0x0 0xA) ∧
    (s.step.1 = .ran ↔
      ¬ (Mnemonic.ofWord? w = none ∨ w = 0x00FD ∨ (w = 0x00EE ∧ depth = 0) ∨
        (Word.family w = 0x2 ∧ depth = 64) ∨
        (Word.family w = 0x1 ∧ Word.nnn w = a ∨
          Word.family w = 0x2 ∧ Word.nnn w = a ∧ depth < 64) ∨
        (∃ n : Fin 16, w = Word.ofNibbles 0xF n 0x0 0x1 ∧ 3 < n) ∨
        ∃ x, w = Word.ofNibbles 0xF x 0x0 0xA)) := by
  intro a w depth
  have refused {reason : Halt} : s.step.1 = .halts reason ↔ s.state.Refuses w reason :=
    step_halts_iff running
  have waits {wait : KeyWait} : s.step.1 = .awaits wait ↔
      w = Word.ofNibbles 0xF wait.register 0x0 0xA ∧
        wait = ⟨wait.register, a, s.context.keypad.watch⟩ := step_awaits_iff running
  refine ⟨?_, ?_, ?_, ?_, ?_, ?_, ?_, ?_⟩
  · exact refused.trans State.refuses_illegal_iff
  · exact refused.trans State.refuses_exit_iff
  · exact refused.trans State.refuses_underflow_iff
  · exact refused.trans State.refuses_overflow_iff
  · exact refused.trans (State.refuses_spin_iff bounded)
  · intro n
    exact refused.trans State.refuses_badPlane_iff
  · intro x
    exact waits.trans (and_iff_left rfl)
  · have waits_some : (∃ wait, s.step.1 = .awaits wait) ↔
        ∃ x, w = Word.ofNibbles 0xF x 0x0 0xA := by
      constructor
      · rintro ⟨wait, h⟩
        exact ⟨wait.register, (waits.1 h).1⟩
      · rintro ⟨x, hw⟩
        exact ⟨⟨x, a, s.context.keypad.watch⟩, waits.2 ⟨hw, rfl⟩⟩
    rw [step_ran_iff, waits_some, exists_congr fun _ => refused, State.exists_refuses_iff,
      State.refuses_illegal_iff, State.refuses_exit_iff, State.refuses_underflow_iff,
      State.refuses_overflow_iff, State.refuses_spin_iff bounded,
      exists_congr fun _ => State.refuses_badPlane_iff]
    simp only [or_assoc, a, depth]

/-- A subroutine that calls itself overflows a full stack; it would spin on any other. -/
theorem step_outcome_full_stack :
    let s : Console :=
      { machine :=
          { state :=
              { stack := { depth := 64 }, memory := Memory.blank.write 0x200 0x22,
                delay := .expired 0 }
            dialect := {}, random := .ofSeed 0 }
        context := {} }
    s.state.halted = none ∧ s.state.stack.depth ≤ CallStack.capacity ∧
      s.step.1 = .halts (.overflow 0x200) := by
  intro s
  have calls : Word.family s.state.word = 0x2 := by
    simp only [s, State.word, Memory.readWord, Memory.read_write, Memory.read_blank]
    decide
  have bounded : s.state.stack.depth ≤ CallStack.capacity := Nat.le_refl 64
  obtain ⟨-, -, -, overflow, -⟩ := step_outcome_iff (s := s) rfl bounded
  exact ⟨rfl, bounded, overflow.2 ⟨calls, rfl⟩⟩

end Console

end XoChip
