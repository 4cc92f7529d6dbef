import Mathlib.Data.Nat.Bitwise
import XoChip.Proofs.Access.State
import XoChip.Proofs.Machine.Verdict

/-!
# Arithmetic on two registers

The words `8XY_` compute with the values of `VX` and `VY`, put the result into `VX` and, most of them,
a flag into `VF`. Both operands may be the same register, and either may be `VF`: the operands are read
before anything is written, and which of result and flag stays in `VF` is a matter of the dialect.
-/

namespace XoChip

/-! ## Results and flags -/

namespace AluOp

/-- The result of an operation on two bytes. -/
def result : AluOp → Nat → Nat → Nat
  | copy, _, b => b
  | or, a, b => a ||| b
  | and, a, b => a &&& b
  | xor, a, b => a ^^^ b
  | add, a, b => (a + b) % 256
  | sub, a, b => (256 + a - b) % 256
  | subFrom, a, b => (256 + b - a) % 256
  | shiftRight, a, _ => a / 2
  | shiftLeft, a, _ => 2 * a % 256

/-- The flag that an operation sets, if it sets one: that something was carried, that nothing was
    borrowed, or the bit that was shifted out. -/
def flag? : AluOp → Nat → Nat → Option Bool
  | add, a, b => some (255 < a + b)
  | sub, a, b => some (b ≤ a)
  | subFrom, a, b => some (a ≤ b)
  | shiftRight, a, _ => some (a % 2 = 1)
  | shiftLeft, a, _ => some (128 ≤ a)
  | _, _, _ => none

/-- The operations after which some dialects clear `VF`. -/
def isBitwise : AluOp → Bool
  | or | and | xor => true
  | _ => false

end AluOp

/-- A mask of one bit tests that bit. -/
theorem land_mask_ne_zero {mask : UInt8} {k : Nat} (single : mask.toNat = 2 ^ k) (a : UInt8) :
    (a &&& mask != 0) = a.toNat.testBit k := by
  have masked : (a &&& mask).toNat = (a.toNat.testBit k).toNat * 2 ^ k := by
    rw [UInt8.toNat_and, single, Nat.and_two_pow]
  have zero : a &&& mask = 0 ↔ a.toNat.testBit k = false := by
    rw [← UInt8.toNat_inj, masked]
    simp
  rw [Bool.eq_iff_iff, bne_iff_ne, ne_eq, zero, Bool.not_eq_false]

namespace State

variable {s : State} {d : Dialect} {op : AluOp} {x y z : Register}

/-! ## Putting down -/

/-- Of result and flag, the dialect says which is put down last. -/
theorem get_setWithFlag (s : State) (d : Dialect) (x z : Register) (result : UInt8) (flag : Bool) :
    (s.setWithFlag d x result flag).get z =
      if z = .flag then
        if x = .flag ∧ d.resultOverFlag = true then result else if flag then 1 else 0
      else if z = x then result else s.get z := by
  unfold setWithFlag
  by_cases stays : d.resultOverFlag = true
  · simp only [stays, if_true, get_set, and_true]
    by_cases hz : z = .flag
    · subst hz
      by_cases hx : x = .flag
      · simp [hx]
      · simp [hx, Ne.symm hx]
    · simp [hz]
  · simp only [stays, Bool.false_eq_true, if_false, get_set, and_false]

theorem get_setLogic (s : State) (d : Dialect) (x z : Register) (result : UInt8) :
    (s.setLogic d x result).get z =
      if z = .flag ∧ d.logicResetsVF = true then 0 else if z = x then result else s.get z := by
  unfold setLogic
  by_cases resets : d.logicResetsVF = true
  · simp only [resets, if_true, get_set, and_true]
  · simp only [resets, Bool.false_eq_true, if_false, get_set, and_false]

/-! ## Operations -/

/-- An operation puts down its result: with its flag if it sets one, as dialects have it if it is
    bitwise, and nothing else if it copies. -/
theorem alu_cases (s : State) (d : Dialect) (op : AluOp) (x y : Register) :
    let a := (s.get x).toNat
    let b := (s.get y).toNat
    ∃ value : UInt8, value.toNat = op.result a b ∧
      ((∃ flag, op.flag? a b = some flag ∧ s.alu d op x y = s.setWithFlag d x value flag) ∨
        (op.flag? a b = none ∧ op.isBitwise = true ∧ s.alu d op x y = s.setLogic d x value) ∨
        (op.flag? a b = none ∧ op.isBitwise = false ∧ s.alu d op x y = s.set x value)) := by
  intro a b
  have ha : a < 256 := (s.get x).toNat_lt
  have hb : b < 256 := (s.get y).toNat_lt
  cases op with
  | copy => exact ⟨s.get y, rfl, .inr (.inr ⟨rfl, rfl, rfl⟩)⟩
  | or => exact ⟨_, UInt8.toNat_or _ _, .inr (.inl ⟨rfl, rfl, rfl⟩)⟩
  | and => exact ⟨_, UInt8.toNat_and _ _, .inr (.inl ⟨rfl, rfl, rfl⟩)⟩
  | xor => exact ⟨_, UInt8.toNat_xor _ _, .inr (.inl ⟨rfl, rfl, rfl⟩)⟩
  | add => exact ⟨_, UInt8.toNat_add _ _, .inl ⟨_, rfl, rfl⟩⟩
  | sub =>
    refine ⟨s.get x - s.get y, ?_, .inl ⟨_, rfl, rfl⟩⟩
    rw [UInt8.toNat_sub, AluOp.result]
    omega
  | subFrom =>
    refine ⟨s.get y - s.get x, ?_, .inl ⟨_, rfl, rfl⟩⟩
    rw [UInt8.toNat_sub, AluOp.result]
    omega
  | shiftRight =>
    refine ⟨s.get x >>> 1, ?_, .inl ⟨_, rfl, ?_⟩⟩
    · rw [UInt8.toNat_shiftRight]
      exact Nat.shiftRight_eq_div_pow a 1
    · have lowest : (s.get x &&& 1 != 0) = decide (a % 2 = 1) := by
        rw [land_mask_ne_zero (k := 0) rfl, Nat.testBit_zero]
      rw [← lowest]
      rfl
  | shiftLeft =>
    refine ⟨s.get x <<< 1, ?_, .inl ⟨_, rfl, ?_⟩⟩
    · rw [UInt8.toNat_shiftLeft, AluOp.result, Nat.mul_comm]
      exact congrArg (· % 256) (Nat.shiftLeft_eq a 1)
    · have highest : (s.get x &&& 0x80 != 0) = decide (128 ≤ a) := by
        rw [land_mask_ne_zero (k := 7) rfl, Nat.testBit_eq_decide_div_mod_eq, decide_eq_decide]
        omega
      rw [← highest]
      rfl

/-- Apart from `VF`, an operation changes `VX` alone. -/
theorem toNat_get_alu (hz : z ≠ .flag) :
    ((s.alu d op x y).get z).toNat =
      if z = x then op.result (s.get x).toNat (s.get y).toNat else (s.get z).toNat := by
  obtain ⟨value, value_eq, ⟨flag, -, put⟩ | ⟨-, -, put⟩ | ⟨-, -, put⟩⟩ := s.alu_cases d op x y
  · rw [put, get_setWithFlag, if_neg hz, ← value_eq, apply_ite UInt8.toNat]
  · rw [put, get_setLogic, if_neg (fun h => hz h.1), ← value_eq, apply_ite UInt8.toNat]
  · rw [put, get_set, ← value_eq, apply_ite UInt8.toNat]

theorem toNat_flag_alu_of_some {flag : Bool}
    (sets : op.flag? (s.get x).toNat (s.get y).toNat = some flag) :
    ((s.alu d op x y).get .flag).toNat =
      if x = .flag ∧ d.resultOverFlag = true then op.result (s.get x).toNat (s.get y).toNat
      else flag.toNat := by
  obtain ⟨value, value_eq, ⟨flag', sets', put⟩ | ⟨none, -⟩ | ⟨none, -⟩⟩ := s.alu_cases d op x y
  · obtain rfl : flag = flag' := Option.some.inj (sets.symm.trans sets')
    rw [put, get_setWithFlag, if_pos rfl, ← value_eq, apply_ite UInt8.toNat]
    cases flag <;> rfl
  · cases sets.symm.trans none
  · cases sets.symm.trans none

theorem toNat_flag_alu_of_none (sets : op.flag? (s.get x).toNat (s.get y).toNat = none) :
    ((s.alu d op x y).get .flag).toNat =
      if op.isBitwise = true ∧ d.logicResetsVF = true then 0
      else if x = .flag then op.result (s.get x).toNat (s.get y).toNat
      else (s.get .flag).toNat := by
  obtain ⟨value, value_eq, ⟨flag, some, -⟩ | ⟨-, bitwise, put⟩ | ⟨-, bitwise, put⟩⟩ :=
    s.alu_cases d op x y
  · cases sets.symm.trans some
  · rw [put, get_setLogic, ← value_eq]
    simp only [bitwise, true_and, apply_ite UInt8.toNat, eq_comm (a := Register.flag)]
    rfl
  · rw [put, get_set, ← value_eq]
    simp only [bitwise, Bool.false_eq_true, false_and, if_false, apply_ite UInt8.toNat,
      eq_comm (a := Register.flag)]

end State

namespace Console

variable {s : Console} {op : AluOp} {x y : Register}

/-- What a step makes of the machine when the instruction computes. -/
theorem step_of_alu (running : s.state.halted = none)
    (word : s.state.word = Word.ofNibbles 0x8 x y op.nibble) :
    s.step =
      (.ran,
        s.fetch.setState
          (State.alu { s.state with pc := s.state.pc + 2 } s.machine.dialect op x y)) := by
  have stands : Instruction.decode? s.state.word = some (.alu op x y) :=
    Instruction.decode?_eq_some_iff.2 ⟨word.symm, trivial⟩
  exact step_of_stands running stands trivial

/-- What the family `8XY_` does, also where its operands are one register or `VF`. They count as they
    are before the instruction; `VX` gets the result and `VF` the flag, and the dialect decides which
    stays where these are the same register, and whether a bitwise operation clears `VF`. -/
theorem alu_exact (running : s.state.halted = none)
    (word : s.state.word = Word.ofNibbles 0x8 x y op.nibble) :
    let d := s.machine.dialect
    let a := (s.state.get x).toNat
    let b := (s.state.get y).toNat
    let t := s.step.2.state
    s.step.1 = .ran ∧
    t = { s.state with v := t.v, pc := s.state.pc + 2 } ∧
    (∀ z, z ≠ x → z ≠ .flag → t.get z = s.state.get z) ∧
    (x ≠ .flag → (t.get x).toNat = op.result a b) ∧
    (∀ flag, op.flag? a b = some flag →
      (t.get .flag).toNat =
        if x = .flag ∧ d.resultOverFlag = true then op.result a b else flag.toNat) ∧
    (op.flag? a b = none →
      (t.get .flag).toNat =
        if op.isBitwise = true ∧ d.logicResetsVF = true then 0
        else if x = .flag then op.result a b else (s.state.get .flag).toNat) := by
  intro d a b t
  let u : State := { s.state with pc := s.state.pc + 2 }
  have t_eq : t = u.alu d op x y := congrArg (fun r => r.2.state) (step_of_alu running word)
  refine ⟨?_, ?_, ?_, ?_, ?_, ?_⟩
  · rw [step_of_alu running word]
  · rw [t_eq]
    exact u.alu_eq d op x y
  · intro z other hz
    have same : ((u.alu d op x y).get z).toNat = (u.get z).toNat :=
      (State.toNat_get_alu hz).trans (if_neg other)
    rw [t_eq]
    exact UInt8.toNat_inj.1 same
  · intro hx
    rw [t_eq, State.toNat_get_alu hx, if_pos rfl]
    rfl
  · intro flag sets
    rw [t_eq]
    exact State.toNat_flag_alu_of_some (s := u) sets
  · intro sets
    rw [t_eq]
    exact State.toNat_flag_alu_of_none (s := u) sets

/-- `8F15` and `8F11`, where the result of 3 and 5 goes to `VF`, under two dialects. -/
theorem alu_exact_in_flag :
    let s (low : UInt8) (dialect : Dialect) : Console :=
      { machine :=
          { state :=
              (State.set
                { memory := (Memory.blank.write 0x200 0x8F).write 0x201 low, delay := .expired 0 }
                .flag 3).set 1 5
            dialect, random := .ofSeed 0 }
        context := {} }
    let e : Dialect := { resultOverFlag := true, logicResetsVF := true }
    (s 0x15 e).state.halted = none ∧
      (s 0x15 e).state.word = Word.ofNibbles 0x8 0xF 0x1 AluOp.sub.nibble ∧
      ((s 0x15 {}).step.2.state.get .flag).toNat = 0 ∧
      ((s 0x15 e).step.2.state.get .flag).toNat = 254 ∧
      ((s 0x11 {}).step.2.state.get .flag).toNat = 7 ∧
      ((s 0x11 e).step.2.state.get .flag).toNat = 0 := by
  intro s e
  have word (low : UInt8) (dialect : Dialect) :
      (s low dialect).state.word = UInt16.ofNat (0x8F * 0x100 + low.toNat) := by
    simp [s, State.word, State.set, Memory.readWord, Memory.read_write, programStart]
  have sub_word (dialect : Dialect) :
      (s 0x15 dialect).state.word = Word.ofNibbles 0x8 0xF 0x1 AluOp.sub.nibble :=
    word 0x15 dialect
  have or_word (dialect : Dialect) :
      (s 0x11 dialect).state.word = Word.ofNibbles 0x8 0xF 0x1 AluOp.or.nibble :=
    word 0x11 dialect
  obtain ⟨-, -, -, -, sub_flag, -⟩ := alu_exact rfl (sub_word {})
  obtain ⟨-, -, -, -, sub_result, -⟩ := alu_exact rfl (sub_word e)
  obtain ⟨-, -, -, -, -, or_result⟩ := alu_exact rfl (or_word {})
  obtain ⟨-, -, -, -, -, or_cleared⟩ := alu_exact rfl (or_word e)
  exact ⟨rfl, sub_word e, sub_flag false rfl, sub_result false rfl,
    (or_result rfl).trans (by decide), or_cleared rfl⟩

end Console

end XoChip
