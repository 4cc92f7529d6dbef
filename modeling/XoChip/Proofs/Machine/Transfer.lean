import XoChip.Proofs.Machine.Isolation

/-!
# Registers to memory and back

`5XY2` and `5XY3` move a range of registers between the register file and memory, `FX55` and
`FX65` the first registers, and `FX75` and `FX85` move the first registers between the file and the
flag registers. The registers of a range are stored as far from `I` as they are from `VX`,
whichever way the range goes and also where addresses wrap around; so what one instruction has
stored the other brings back.
-/

namespace XoChip

namespace State

variable {x y r : Register}

/-- Where a register of a range from `VX` on is stored. -/
def slot (s : State) (x r : Register) : UInt16 := s.i + UInt16.ofNat (Register.distance x r)

theorem toNat_slot_sub (s : State) (x r : Register) :
    (s.slot x r - s.i).toNat = Register.distance x r := by
  have lt := Register.distance_lt x r
  rw [slot, UInt16.add_comm, UInt16.add_sub_cancel]
  exact UInt16.toNat_ofNat_of_lt' (by simp only [UInt16.size]; omega)

/-- An address that is as far behind `I` as a register of a range is from `VX` is its slot. -/
theorem eq_slot {s : State} {a : UInt16} (far : (a - s.i).toNat = Register.distance x r) :
    a = s.slot x r := by
  rw [slot, ← far, UInt16.ofNat_toNat, UInt16.add_comm, UInt16.sub_add_cancel]

theorem read_storeRange (s : State) (a : UInt16) :
    (s.storeRange x y).memory.read a =
      (((Register.range x y)[(a - s.i).toNat]?).map s.get).getD (s.memory.read a) := by
  have hx := x.isLt
  have hy := y.isLt
  have fits : ((Register.range x y).map s.v.get).length ≤ 0x10000 := by
    rw [List.length_map, Register.length_range]
    omega
  rw [storeRange, Memory.read_writeMany _ _ _ fits, List.getElem?_map]
  rfl

theorem read_storeRange_slot (s : State) (h : Register.Between x y r) :
    (s.storeRange x y).memory.read (s.slot x r) = s.get r := by
  rw [read_storeRange, toNat_slot_sub, Register.getElem?_range_eq_some_iff.2 ⟨h, rfl⟩]
  rfl

theorem read_storeRange_of_ne (s : State) {a : UInt16}
    (ne : ∀ r, Register.Between x y r → a ≠ s.slot x r) :
    (s.storeRange x y).memory.read a = s.memory.read a := by
  rw [read_storeRange]
  cases there : (Register.range x y)[(a - s.i).toNat]? with
  | none => rfl
  | some r =>
    obtain ⟨between, far⟩ := Register.getElem?_range_eq_some_iff.1 there
    exact absurd (eq_slot far) (ne r between)

theorem get_loadRange (s : State) (x y r : Register) :
    (s.loadRange x y).get r =
      if Register.Between x y r then s.memory.read (s.slot x r) else s.get r := by
  have length := Memory.length_readMany s.memory s.i (Register.range x y).length
  rw [loadRange, get]
  dsimp only
  rw [Registers.get_setMany_range _ length]
  split
  · next between =>
    have short : Register.distance x r < (Register.range x y).length :=
      (List.getElem?_eq_some_iff.1 (Register.getElem?_range_eq_some_iff.2 ⟨between, rfl⟩)).1
    rw [Memory.getElem?_readMany _ _ short]
    rfl
  · rfl

/-- The registers from `V0` on are a range. -/
theorem storeRegisters_eq (s : State) (x : Register) : s.storeRegisters x = s.storeRange 0 x := by
  rw [storeRegisters, Registers.upTo_eq, storeRange]

theorem loadRegisters_eq (s : State) (x : Register) : s.loadRegisters x = s.loadRange 0 x := by
  have count : (Register.range 0 x).length = x.val + 1 := by
    rw [Register.range_zero, List.length_map, List.length_range]
  rw [loadRegisters, loadRange, count,
    Registers.setMany_range_zero _ _ (Memory.length_readMany ..)]

end State

/-! ## Digits -/

/-- A byte is the sum of its decimal digits. -/
theorem digits_of_byte (b : UInt8) :
    b / 100 ≤ 9 ∧ b % 100 / 10 ≤ 9 ∧ b % 10 ≤ 9 ∧
      100 * (b / 100).toNat + 10 * (b % 100 / 10).toNat + (b % 10).toNat = b.toNat := by
  have lt := b.toNat_lt
  simp only [UInt8.le_iff_toNat_le, UInt8.toNat_div, UInt8.toNat_mod, UInt8.reduceToNat]
  omega

namespace Console

variable {s u : Console} {x y r : Register}

/-! ## Steps by word -/

/-- What a step does, as announced, if the word at the program counter is read as `w`. -/
def stepAs (s : Console) (w : UInt16) : Outcome × Console :=
  match s.state.judge w with
  | .error reason => s.fetch.halt reason
  | .ok i => s.fetch.execute s.state.pc i

theorem step_eq_stepAs (running : s.state.halted = none) : s.step = s.stepAs s.state.word := by
  rw [step, running]
  rfl

theorem stepAs_encode {i : Instruction} (fits : i.Fits) (admits : s.state.Admits i) :
    s.stepAs i.encode = s.fetch.execute s.state.pc i := by
  have stands := Instruction.decode?_eq_some_iff.2 ⟨rfl, fits⟩
  rw [stepAs, State.judge_eq_ok_iff.2 ⟨stands, admits⟩]

theorem step_of_word {i : Instruction} (running : s.state.halted = none)
    (word : s.state.word = i.encode) (fits : i.Fits) (admits : s.state.Admits i) :
    s.step = s.fetch.execute s.state.pc i := by
  rw [step_eq_stepAs running, word, stepAs_encode fits admits]

/-- The transfers from `V0` on can be written in two ways. -/
theorem stepAs_alike (s : Console) (x : Register) :
    s.stepAs (Word.ofNibbles 0x5 0 x 0x2) = s.stepAs (Word.ofByte 0xF x 0x55) ∧
      s.stepAs (Word.ofNibbles 0x5 0 x 0x3) = s.stepAs (Word.ofByte 0xF x 0x65) := by
  constructor
  · calc s.stepAs (Instruction.storeRange 0 x).encode
      _ = s.fetch.execute s.state.pc (.storeRange 0 x) := stepAs_encode trivial trivial
      _ = s.fetch.execute s.state.pc (.storeRegisters x) := by
        simp only [execute, mapState, State.storeRegisters_eq]
      _ = s.stepAs (Instruction.storeRegisters x).encode :=
        (stepAs_encode (i := .storeRegisters x) trivial trivial).symm
  · calc s.stepAs (Instruction.loadRange 0 x).encode
      _ = s.fetch.execute s.state.pc (.loadRange 0 x) := stepAs_encode trivial trivial
      _ = s.fetch.execute s.state.pc (.loadRegisters x) := by
        simp only [execute, mapState, State.loadRegisters_eq]
      _ = s.stepAs (Instruction.loadRegisters x).encode :=
        (stepAs_encode (i := .loadRegisters x) trivial trivial).symm

/-! ## Registers and memory -/

/-- A step runs and goes on behind its instruction; all else that it leaves in the state is that of
    `t`. -/
def Becomes (s : Console) (t : State) : Prop :=
  s.step = (.ran, s.fetch.setState { t with pc := s.state.pc + 2 })

/-- A step stores the registers from `VX` to `VY` and changes nothing else. -/
structure Stores (s : Console) (x y : Register) : Prop where
  becomes : s.Becomes { s.state with memory := s.step.2.state.memory }
  stored : ∀ r, Register.Between x y r →
    s.step.2.state.memory.read (s.state.slot x r) = s.state.get r
  others : ∀ a, (∀ r, Register.Between x y r → a ≠ s.state.slot x r) →
    s.step.2.state.memory.read a = s.state.memory.read a

/-- A step loads the registers from `VX` to `VY` and changes nothing else. -/
structure Loads (s : Console) (x y : Register) : Prop where
  becomes : s.Becomes { s.state with v := s.step.2.state.v }
  get : ∀ r, s.step.2.state.get r =
    if Register.Between x y r then s.state.memory.read (s.state.slot x r) else s.state.get r

/-- A machine has the same index as `s`, and what `s` stores from `VX` to `VY` in its step. -/
def Keeps (s u : Console) (x y : Register) : Prop :=
  u.state.i = s.state.i ∧
    ∀ r, Register.Between x y r →
      u.state.memory.read (s.state.slot x r) = s.step.2.state.memory.read (s.state.slot x r)

theorem stores_of_word (running : s.state.halted = none)
    (word : s.state.word = Word.ofNibbles 0x5 x y 0x2) : s.Stores x y := by
  have executed := step_of_word (i := .storeRange x y) running word trivial trivial
  have memory : s.step.2.state.memory = (s.state.storeRange x y).memory := by
    rw [executed]
    rfl
  refine ⟨?_, ?_, ?_⟩
  · rw [Becomes, memory, executed]
    rfl
  · intro r between
    rw [memory, State.read_storeRange_slot _ between]
  · intro a ne
    rw [memory, State.read_storeRange_of_ne _ ne]

theorem loads_of_word (running : s.state.halted = none)
    (word : s.state.word = Word.ofNibbles 0x5 x y 0x3) : s.Loads x y := by
  have executed := step_of_word (i := .loadRange x y) running word trivial trivial
  have registers : s.step.2.state.v = (s.state.loadRange x y).v := by
    rw [executed]
    rfl
  refine ⟨?_, ?_⟩
  · rw [Becomes, registers, executed]
    rfl
  · intro r
    rw [← State.get_loadRange, State.get, registers]
    rfl

/-- What has been stored is loaded again. -/
theorem get_of_loads (stores : s.Stores x y) (kept : s.Keeps u x y) (loads : u.Loads x y) :
    u.step.2.state.get r = if Register.Between x y r then s.state.get r else u.state.get r := by
  rw [loads.get]
  split
  · next between =>
    have slot : u.state.slot x r = s.state.slot x r := by rw [State.slot, State.slot, kept.1]
    rw [slot, kept.2 r between, stores.stored r between]
  · rfl

/-- The other way round, what has been stored is loaded reversed. -/
theorem get_of_loads_reversed (stores : s.Stores x y) (kept : s.Keeps u x y) (loads : u.Loads y x)
    {q : Register} (between : Register.Between x y r) (mirror : q.val + r.val = x.val + y.val) :
    u.step.2.state.get r = s.state.get q := by
  have between_q : Register.Between x y q := by
    simp only [Register.Between, Fin.le_def] at between ⊢
    omega
  have far : Register.distance y r = Register.distance x q := by
    simp only [Register.Between, Fin.le_def] at between
    unfold Register.distance
    omega
  have slot : u.state.slot y r = s.state.slot x q := by rw [State.slot, State.slot, kept.1, far]
  rw [loads.get, if_pos (Register.between_comm.1 between), slot, kept.2 q between_q,
    stores.stored q between_q]

/-- A step stores the decimal digits of `VX` and changes nothing else. -/
structure StoresDigits (s : Console) (x : Register) : Prop where
  becomes : s.Becomes { s.state with memory := s.step.2.state.memory }
  stored : ∃ h t u : UInt8, h ≤ 9 ∧ t ≤ 9 ∧ u ≤ 9 ∧
    100 * h.toNat + 10 * t.toNat + u.toNat = (s.state.get x).toNat ∧
    s.step.2.state.memory.readMany s.state.i 3 = [h, t, u]
  others : ∀ a, (∀ k, k < 3 → a ≠ s.state.i + UInt16.ofNat k) →
    s.step.2.state.memory.read a = s.state.memory.read a

theorem storesDigits_of_word (running : s.state.halted = none)
    (word : s.state.word = Word.ofByte 0xF x 0x33) : s.StoresDigits x := by
  have executed := step_of_word (i := .storeDecimal x) running word trivial trivial
  have memory : s.step.2.state.memory = (s.state.storeDecimal x).memory := by
    rw [executed]
    rfl
  obtain ⟨hundreds, tens, units, sum⟩ := digits_of_byte (s.state.get x)
  refine ⟨?_, ⟨_, _, _, hundreds, tens, units, sum, ?_⟩, ?_⟩
  · rw [Becomes, memory, executed]
    rfl
  · rw [memory]
    exact Memory.readMany_writeMany _ _ (by decide : 3 ≤ 0x10000)
  · intro a ne
    rw [memory]
    exact Memory.read_writeMany_of_ne _ ne

/-! ## Flag registers -/

/-- The words `FX75`. -/
def SavesFlags (w : UInt16) : Prop := Word.family w = 0xF ∧ Word.nn w = 0x75

theorem flags_step (running : s.state.halted = none) (other : ¬ SavesFlags s.state.word) :
    s.step.2.state.flags = s.state.flags := by
  apply Vector.ext
  intro k lt
  have same : (Part.flag ⟨k, lt⟩).Same s s.step.2 :=
    same_step running fun touched => other ⟨touched.1, touched.2.1⟩
  exact same

theorem traceable_flags :
    Traceable fun s t es => (∀ e ∈ es, ¬ SavesFlags e.2) → t.state.flags = s.state.flags where
  quiet := by
    rintro s t ⟨-, v, pc, machine⟩ -
    rw [state, machine]
  step := by
    intro s running others
    exact flags_step running (others _ (List.mem_singleton_self _))
  trans := by
    intro s t u es fs first rest others
    rw [List.forall_mem_append] at others
    exact (rest others.2).trans (first others.1)

/-- A step saves the registers up to `VX` as flags and changes nothing else. -/
structure Saves (s : Console) (x : Register) : Prop where
  becomes : s.Becomes { s.state with flags := s.step.2.state.flags }
  get : ∀ r, s.step.2.state.flags.get r = if r ≤ x then s.state.get r else s.state.flags.get r

/-- A step brings the registers up to `VX` back from the flags and changes nothing else. -/
structure Restores (s : Console) (x : Register) : Prop where
  becomes : s.Becomes { s.state with v := s.step.2.state.v }
  get : ∀ r, s.step.2.state.get r = if r ≤ x then s.state.flags.get r else s.state.get r

theorem saves_of_word (running : s.state.halted = none)
    (word : s.state.word = Word.ofByte 0xF x 0x75) : s.Saves x := by
  have executed := step_of_word (i := .saveFlags x) running word trivial trivial
  have flags : s.step.2.state.flags = s.state.flags.setFirst (s.state.v.upTo x) := by
    simp only [executed, execute, mapState, state, State.saveFlags, fetch]
  refine ⟨?_, ?_⟩
  · rw [Becomes, flags, executed]
    simp only [execute, mapState, setState, state, State.saveFlags, fetch]
  · intro r
    rw [flags, Registers.get_setFirst]
    rfl

theorem restores_of_word (running : s.state.halted = none)
    (word : s.state.word = Word.ofByte 0xF x 0x85) : s.Restores x := by
  have executed := step_of_word (i := .loadFlags x) running word trivial trivial
  have registers : s.step.2.state.v = s.state.v.setFirst (s.state.flags.upTo x) := by
    simp only [executed, execute, mapState, state, State.loadFlags, fetch]
  refine ⟨?_, ?_⟩
  · rw [Becomes, registers, executed]
    simp only [execute, mapState, setState, state, State.loadFlags, fetch]
  · intro r
    rw [State.get, registers, Registers.get_setFirst]
    rfl

/-- What the transfers between registers, memory and flag registers do, and which of them undo
    each other. What `5XY2` has stored, `5XY3` brings back and `5YX3` brings back reversed, in any
    machine in which it is still there; from `V0` on they do the same as `FX55` and `FX65`. What
    `FX75` has saved, `FZ85` brings back after any run without another `FX75`. -/
theorem transfers_exact (running : s.state.halted = none) :
    let w := s.state.word
    (∀ x y, w = Word.ofNibbles 0x5 x y 0x2 → s.Stores x y ∧
      ∀ u : Console, u.state.halted = none → s.Keeps u x y →
        (u.state.word = Word.ofNibbles 0x5 x y 0x3 → ∀ r,
          u.step.2.state.get r = if Register.Between x y r then s.state.get r else u.state.get r) ∧
        (u.state.word = Word.ofNibbles 0x5 y x 0x3 → ∀ q r : Register, Register.Between x y r →
          q.val + r.val = x.val + y.val → u.step.2.state.get r = s.state.get q)) ∧
    (∀ x y, w = Word.ofNibbles 0x5 x y 0x3 → s.Loads x y) ∧
    (s.step = s.stepAs w ∧ ∀ x,
      s.stepAs (Word.ofNibbles 0x5 0 x 0x2) = s.stepAs (Word.ofByte 0xF x 0x55) ∧
        s.stepAs (Word.ofNibbles 0x5 0 x 0x3) = s.stepAs (Word.ofByte 0xF x 0x65)) ∧
    (∀ x, w = Word.ofByte 0xF x 0x33 → s.StoresDigits x) ∧
    (∀ x, w = Word.ofByte 0xF x 0x75 → s.Saves x ∧
      ∀ ms, ∃ es,
        let u := run ms s.step.2
        u.context.executed = s.step.2.context.executed ++ es ∧
          ((∀ e ∈ es, ¬ SavesFlags e.2) → u.state.halted = none →
            ∀ z ≤ x, u.state.word = Word.ofByte 0xF z 0x85 →
              u.Becomes { u.state with v := u.step.2.state.v } ∧
                ∀ r, u.step.2.state.get r = if r ≤ z then s.state.get r else u.state.get r)) := by
  intro w
  refine ⟨?_, ?_, ?_, ?_, ?_⟩
  · intro x y stores_word
    have stores : s.Stores x y := stores_of_word running stores_word
    refine ⟨stores, ?_⟩
    intro u running_u kept
    constructor
    · intro loads_word r
      exact get_of_loads stores kept (loads_of_word running_u loads_word)
    · intro loads_word q r between mirror
      exact get_of_loads_reversed stores kept (loads_of_word running_u loads_word) between mirror
  · intro x y loads_word
    exact loads_of_word running loads_word
  · exact ⟨step_eq_stepAs running, s.stepAs_alike⟩
  · intro x digits_word
    exact storesDigits_of_word running digits_word
  · intro x saves_word
    have saves : s.Saves x := saves_of_word running saves_word
    refine ⟨saves, ?_⟩
    intro ms
    obtain ⟨es, executed, kept⟩ := traceable_flags.traced_run ms s.step.2
    refine ⟨es, executed, ?_⟩
    intro others running_u z le restores_word
    have restores : (run ms s.step.2).Restores z := restores_of_word running_u restores_word
    refine ⟨restores.becomes, ?_⟩
    intro r
    rw [restores.get, kept others, saves.get]
    split
    · next le_z => rw [if_pos (Fin.le_trans le_z le)]
    · rfl

/-- `5312` across the end of memory, and `5313` after it with blank registers; and `F275`, with
    `F185` after `60FF`. -/
theorem transfers_exact_wrapping :
    let s : Console :=
      { machine :=
          { state :=
              { v := Registers.blank.setMany [(1, 0x11), (2, 0x22), (3, 0x33)]
                memory := Memory.blank.writeMany 0x200 [0x53, 0x12, 0x53, 0x13]
                i := 0xFFFE, delay := .expired 0 }
            dialect := {}, random := .ofSeed 0 }
        context := {} }
    let u : Console := s.step.2.setState { s.step.2.state with v := Registers.blank }
    let saves := ready [0xF2, 0x75, 0x60, 0xFF, 0xF1, 0x85] (Registers.blank.setMany [(0, 7)])
    let restores := run [.step] saves.step.2
    (s.state.halted = none ∧ s.step.2.state.memory.read 0xFFFE = 0x33 ∧
      s.step.2.state.memory.read 0x0000 = 0x11 ∧ s.step.2.state.memory.read 0x0001 = 0 ∧
      u.state.halted = none ∧ u.step.2.state.get 1 = 0x11 ∧ u.step.2.state.get 0 = 0) ∧
    saves.state.halted = none ∧ restores.state.get 0 = 0xFF ∧ restores.step.2.state.get 0 = 7 := by
  intro s u saves restores
  have word : s.state.word = 0x5312 := by
    simp [s, programStart, State.word, Memory.readWord, Memory.writeMany, Memory.read_write]
  obtain ⟨transfers, -⟩ := transfers_exact (s := s) rfl
  obtain ⟨stores, back⟩ := transfers 3 1 word
  -- What the step leaves is known from `stores`, so that nothing computes the end of memory.
  have after : s.step.2 =
      s.fetch.setState { s.state with pc := 0x202, memory := s.step.2.state.memory } :=
    congrArg Prod.snd stores.becomes
  have running : u.state.halted = none := by
    show s.step.2.state.halted = none
    rw [after]
    rfl
  have kept : s.Keeps u 3 1 := by
    refine ⟨?_, fun r between => rfl⟩
    show s.step.2.state.i = s.state.i
    rw [after]
    rfl
  have stays (a : UInt16) (ne : ∀ r, Register.Between 3 1 r →
      a ≠ 0xFFFE + UInt16.ofNat (Register.distance 3 r)) :
      s.step.2.state.memory.read a = s.state.memory.read a := stores.others a ne
  have word_u : u.state.word = 0x5313 := by
    have pc : s.step.2.state.pc = 0x202 := by
      rw [after]
      rfl
    show s.step.2.state.memory.readWord s.step.2.state.pc = 0x5313
    rw [pc, Memory.readWord, stays 0x202 (by decide), stays (0x202 + 1) (by decide)]
    simp [s, Memory.writeMany, Memory.read_write]
  have loaded := (back u running kept).1 word_u
  have last : s.step.2.state.memory.read (0xFFFE + 2) = 0x11 := stores.stored 1 (by decide)
  have blank : s.step.2.state.memory.read 1 = 0 := by
    rw [stays 1 (by decide)]
    simp [s, Memory.writeMany, Memory.read_write]
  obtain ⟨saves_word, told, running_r, changed, restores_word⟩ : saves.state.word = 0xF275 ∧
      restores.context.executed = saves.step.2.context.executed ++ [(0x202, 0x60FF)] ∧
      restores.state.halted = none ∧ restores.state.get 0 = 0xFF ∧
      restores.state.word = 0xF185 := by
    decide +kernel
  obtain ⟨-, -, -, -, flags⟩ := transfers_exact (s := saves) rfl
  obtain ⟨es, executed, brings⟩ := (flags 2 saves_word).2 [.step]
  have others : ∀ e ∈ es, ¬ SavesFlags e.2 := by
    rw [List.append_cancel_left (executed.symm.trans told), List.forall_mem_singleton]
    rintro ⟨family, -⟩
    cases family
  obtain ⟨-, restored⟩ := brings others running_r 1 (by decide) restores_word
  refine ⟨⟨rfl, stores.stored 3 (by decide), last, blank, running, ?_, ?_⟩, rfl, changed,
    restored 0⟩
  · rw [loaded]
    rfl
  · rw [loaded]
    rfl

end Console

end XoChip
