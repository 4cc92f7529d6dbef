import XoChip.Machine

/-!
# What a step can do

A step of a machine that has not stopped either records a halt or executes the instruction at the
program counter. `State.judge_eq_ok_iff` says which instructions are executed, and the lemmas on
`Console.execute` say of every part of a machine and of its surroundings which instructions change
it, and how. Everything about single steps follows from these without unfolding them again.
-/

namespace XoChip

/-! ## Which instructions are executed -/

namespace State

/-- An instruction that does not stop the program when it is reached in this state. -/
def Admits (s : State) : Instruction → Prop
  | .exit => False
  | .ret => s.stack.isEmpty = false
  | .jump nnn => nnn ≠ s.pc
  | .call nnn => s.stack.isFull = false ∧ nnn ≠ s.pc
  | .selectPlanes n => n ≤ 3
  | _ => True

theorem ok_eq_ok_iff {s : State} {j i : Instruction} (admitted : s.Admits j) :
    (.ok j : Except Halt Instruction) = .ok i ↔ some j = some i ∧ s.Admits i := by
  constructor
  · rintro ⟨⟩
    exact ⟨rfl, admitted⟩
  · rintro ⟨⟨⟩, -⟩
    rfl

theorem error_eq_ok_iff {s : State} {reason : Halt} {j i : Instruction} (refused : ¬ s.Admits j) :
    (.error reason : Except Halt Instruction) = .ok i ↔ some j = some i ∧ s.Admits i := by
  constructor
  · nofun
  · rintro ⟨⟨⟩, admitted⟩
    exact absurd admitted refused

/-- A word is executed as the instruction it stands for, provided that the state admits it. -/
theorem judge_eq_ok_iff {s : State} {word : UInt16} {i : Instruction} :
    s.judge word = .ok i ↔ Instruction.decode? word = some i ∧ s.Admits i := by
  unfold judge
  cases Instruction.decode? word with
  | none => exact ⟨nofun, fun h => nomatch h.1⟩
  | some j =>
    cases j with
    | exit => exact error_eq_ok_iff id
    | ret =>
      dsimp only
      split
      · next empty => exact error_eq_ok_iff fun used => nomatch empty.symm.trans used
      · next used => exact ok_eq_ok_iff (Bool.eq_false_iff.2 used)
    | jump nnn =>
      dsimp only
      split
      · next spins => exact error_eq_ok_iff fun leaves => leaves spins
      · next leaves => exact ok_eq_ok_iff leaves
    | call nnn =>
      dsimp only
      split
      · next full => exact error_eq_ok_iff fun admits => nomatch full.symm.trans admits.1
      · next free =>
        split
        · next spins => exact error_eq_ok_iff fun admits => admits.2 spins
        · next leaves => exact ok_eq_ok_iff ⟨Bool.eq_false_iff.2 free, leaves⟩
    | selectPlanes n =>
      dsimp only
      split
      · next known => exact ok_eq_ok_iff known
      · next unknown => exact error_eq_ok_iff unknown
    | _ => exact ok_eq_ok_iff trivial

/-- An instruction is executed only where the state admits it. -/
theorem admits_of_next {s : State} {i : Instruction} (h : s.next = .ok i) : s.Admits i :=
  (judge_eq_ok_iff.1 h).2

/-! ## Effects that touch one field -/

theorem skipIf_eq (s : State) (condition : Bool) :
    s.skipIf condition = { s with pc := if condition then s.pc + 2 else s.pc } := by
  unfold skipIf
  split <;> rfl

theorem setWithFlag_eq (s : State) (d : Dialect) (x : Register) (result : UInt8) (flag : Bool) :
    s.setWithFlag d x result flag = { s with v := (s.setWithFlag d x result flag).v } := by
  unfold setWithFlag
  dsimp only
  split <;> rfl

theorem setLogic_eq (s : State) (d : Dialect) (x : Register) (result : UInt8) :
    s.setLogic d x result = { s with v := (s.setLogic d x result).v } := by
  unfold setLogic
  split <;> rfl

theorem alu_eq (s : State) (d : Dialect) (op : AluOp) (x y : Register) :
    s.alu d op x y = { s with v := (s.alu d op x y).v } := by
  cases op with
  | copy => rfl
  | or | and | xor => exact setLogic_eq s d x _
  | add | sub | subFrom | shiftRight | shiftLeft => exact setWithFlag_eq s d x _ _

end State

namespace Console

/-! ## The three kinds of step -/

theorem step_of_halted {s : Console} {reason : Halt} (h : s.state.halted = some reason) :
    s.step = (.halts reason, s) := by
  simp only [step, h]

theorem step_of_error {s : Console} {reason : Halt} (running : s.state.halted = none)
    (h : s.state.next = .error reason) : s.step = s.fetch.halt reason := by
  simp only [step, running, h]

theorem step_of_ok {s : Console} {i : Instruction} (running : s.state.halted = none)
    (h : s.state.next = .ok i) : s.step = s.fetch.execute s.state.pc i := by
  simp only [step, running, h]

/-- What a machine that has not stopped does in a step. -/
theorem step_cases {s : Console} (running : s.state.halted = none) :
    (∃ reason, s.step = s.fetch.halt reason) ∨
      ∃ i, Instruction.decode? s.state.word = some i ∧ s.state.Admits i ∧
        s.step = s.fetch.execute s.state.pc i := by
  cases hn : s.state.next with
  | error reason => exact .inl ⟨reason, step_of_error running hn⟩
  | ok i =>
    obtain ⟨stands, admitted⟩ := State.judge_eq_ok_iff.1 hn
    exact .inr ⟨i, stands, admitted, step_of_ok running hn⟩

/-- A word that stands for an instruction which the state admits is executed. -/
theorem step_of_stands {s : Console} {i : Instruction} (running : s.state.halted = none)
    (stands : Instruction.decode? s.state.word = some i) (admits : s.state.Admits i) :
    s.step = s.fetch.execute s.state.pc i :=
  step_of_ok running (State.judge_eq_ok_iff.2 ⟨stands, admits⟩)

/-- A property of machines that survives fetching, halting and every admitted instruction survives
    a step. -/
theorem step_induction {P : Console → Prop} {s : Console} (h : P s)
    (halt : ∀ reason, P (s.fetch.halt reason).2)
    (execute : ∀ i, s.state.Admits i → P (s.fetch.execute s.state.pc i).2) : P s.step.2 := by
  cases hs : s.state.halted with
  | some reason => rw [step_of_halted hs]; exact h
  | none =>
    cases hn : s.state.next with
    | error reason => rw [step_of_error hs hn]; exact halt reason
    | ok i => rw [step_of_ok hs hn]; exact execute i (State.admits_of_next hn)

/-! ## Batches -/

section Batches

variable {s : Console} (n : Nat)

theorem tick_succ_of_ran (ran : s.step.1 = .ran) (goes_on : s.step.2.endsBatch = false) :
    tick (n + 1) s = tick n s.step.2 := by
  rw [tick]
  generalize s.step = result at ran goes_on
  obtain ⟨outcome, after⟩ := result
  cases ran
  simp only [goes_on, Bool.false_eq_true, if_false]

theorem tick_succ_of_endsBatch (ran : s.step.1 = .ran) (ends : s.step.2.endsBatch = true) :
    tick (n + 1) s = (.ran, s.step.2) := by
  rw [tick]
  generalize s.step = result at ran ends
  obtain ⟨outcome, after⟩ := result
  cases ran
  simp only [ends, if_true]

theorem tick_succ_of_stops (stops : s.step.1 ≠ .ran) : tick (n + 1) s = s.step := by
  rw [tick]
  generalize s.step = result at stops
  obtain ⟨outcome, after⟩ := result
  cases outcome with
  | ran => exact absurd rfl stops
  | awaits | halts => rfl

end Batches

/-- A property that every step keeps is kept by a batch. -/
theorem tick_induction {P : Console → Prop} (step : ∀ s, P s → P s.step.2) (n : Nat)
    {s : Console} (h : P s) : P (tick n s).2 := by
  induction n generalizing s with
  | zero => exact h
  | succ n ih =>
    have hs := step s h
    unfold tick
    split
    · next heq =>
      rw [heq] at hs
      split
      · exact hs
      · exact ih hs
    · exact hs

/-! ## Who changes what -/

/-- What an instruction makes of the state. Registers and program counter are not told here. -/
theorem state_execute (s : Console) (pc : UInt16) (i : Instruction) :
    (s.execute pc i).2.state =
      { v := (s.execute pc i).2.state.v
        flags :=
          match i with
          | .saveFlags x => s.state.flags.setFirst (s.state.v.upTo x)
          | _ => s.state.flags
        stack :=
          match i with
          | .ret => s.state.stack.pop
          | .call _ => s.state.stack.push s.state.pc
          | _ => s.state.stack
        memory :=
          match i with
          | .storeRange x y => (s.state.storeRange x y).memory
          | .storeDecimal x => (s.state.storeDecimal x).memory
          | .storeRegisters x => (s.state.storeRegisters x).memory
          | _ => s.state.memory
        i :=
          match i with
          | .setIndex nnn => nnn
          | .setIndexLong => s.state.memory.readWord s.state.pc
          | .addIndex x => s.state.i + (s.state.get x).toUInt16
          | .smallGlyph x => Font.smallAddress (s.state.get x)
          | .largeGlyph x => Font.largeAddress (s.state.get x)
          | _ => s.state.i
        pc := (s.execute pc i).2.state.pc
        halted := s.state.halted
        delay :=
          match i with
          | .readDelay _ => s.state.delay.settle s.context.clock.now
          | .setDelay x => .start (s.state.get x) s.context.clock.now
          | _ => s.state.delay } := by
  cases i with
  | alu op x y =>
    have values : (s.execute pc (.alu op x y)).2.state =
        { s.state with v := (s.state.alu s.machine.dialect op x y).v } :=
      State.alu_eq s.state s.machine.dialect op x y
    rw [values]
  | skipIfByte | skipUnlessByte | skipIfEqual | skipUnlessEqual | skipIfKey | skipUnlessKey =>
    simp only [execute, mapState, setState, State.skipIf_eq]
  | loadRegisters | saveFlags | loadFlags =>
    simp only [execute, mapState, State.loadRegisters, State.saveFlags, State.loadFlags]
  | _ => rfl

/-- Calls and returns are all that changes the call stack. -/
theorem stack_execute (s : Console) (pc : UInt16) (i : Instruction) :
    (s.execute pc i).2.state.stack =
      match i with
      | .ret => s.state.stack.pop
      | .call _ => s.state.stack.push s.state.pc
      | _ => s.state.stack := by
  rw [state_execute]

/-- What an instruction makes of the machine around its state. The dialect stays. -/
theorem machine_execute (s : Console) (pc : UInt16) (i : Instruction) :
    (s.execute pc i).2.machine =
      { s.machine with
        state := (s.execute pc i).2.state
        random :=
          match i with
          | .random .. => s.machine.random.next.2
          | _ => s.machine.random
        drew :=
          match i with
          | .draw .. => true
          | _ => s.machine.drew } := by
  cases i <;> rfl

/-- No step changes the dialect. -/
@[simp] theorem dialect_step (s : Console) : s.step.2.machine.dialect = s.machine.dialect := by
  apply step_induction (P := fun t => t.machine.dialect = s.machine.dialect) rfl
  · intro reason
    rfl
  · intro i _
    rw [machine_execute]
    rfl

/-- What an instruction makes of the surroundings. Keypad and clock stay. -/
theorem context_execute (s : Console) (pc : UInt16) (i : Instruction) :
    (s.execute pc i).2.context =
      { s.context with
        display := (s.execute pc i).2.context.display
        effects := s.context.effects ++
          match i with
          | .loadPattern =>
            #[.sound (.setPattern (.ofBytes (s.state.memory.readMany s.state.i 16)))]
          | .playSound x => #[.sound (.play (s.state.get x))]
          | .setPitch x => #[.sound (.setRate (pitchRate (s.state.get x)))]
          | .awaitKey _ => #[.notice (.waitingForKey pc)]
          | _ => #[] } := by
  cases i with
  | loadPattern | playSound | setPitch | awaitKey => rfl
  | _ => simp [execute, mapDisplay, mapState, setState, draw, randomByte, readDelay]

/-- The instructions that change the display, and how. -/
theorem display_execute (s : Console) (pc : UInt16) (i : Instruction) :
    (s.execute pc i).2.context.display =
      match i with
      | .clear => s.context.display.clear
      | .scrollDown n => s.context.display.scrollDown (UInt8.ofNat n.val)
      | .scrollUp n => s.context.display.scrollUp (UInt8.ofNat n.val)
      | .scrollRight => s.context.display.scrollRight
      | .scrollLeft => s.context.display.scrollLeft
      | .lores => s.context.display.setHires false
      | .hires => s.context.display.setHires true
      | .selectPlanes n => s.context.display.select (UInt8.ofNat n.val)
      | .draw x y n =>
        (s.context.display.draw (s.state.get x).toNat (s.state.get y).toNat
          (s.state.memory.readMany s.state.i
            (Sprite.totalBytes (UInt8.ofNat n.val) s.context.display.selection))
          (UInt8.ofNat n.val)).2
      | _ => s.context.display := by
  cases i <;> rfl

end Console

/-! ## Key waits -/

namespace KeyWait

/-- A look at the keypad does nothing or stores a key. -/
theorem poll_cases (w : KeyWait) (s : Console) :
    (w.poll s).2.2 = s ∨ ∃ k, (w.poll s).2.2 = w.resolve k s := by
  unfold poll
  split
  · exact .inl rfl
  · exact .inr ⟨_, rfl⟩

/-- So does a look on behalf of a blocking wait, which tells of the key. -/
theorem await_cases (w : KeyWait) (cancelled : Bool) (s : Console) :
    (w.await cancelled s).2.2 = s ∨
      ∃ k, (w.await cancelled s).2.2 =
        w.resolve k { s with context := s.context.tell (.keyReleased k) } := by
  unfold await Context.await
  rcases s.context.keypad.poll w.watch with ⟨key | k, watch⟩
  · cases cancelled with
    | false => exact .inl rfl
    | true => exact .inl rfl
  · exact .inr ⟨k, rfl⟩

end KeyWait

end XoChip
