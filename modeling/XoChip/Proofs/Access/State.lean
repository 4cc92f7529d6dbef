import XoChip.Machine
import XoChip.Proofs.Access.Display
import XoChip.Proofs.Machine.Registers

/-!
# Array accesses of the state

The effects of instructions on registers, stack and memory once more, with every index checked
against the length of its array. Addresses are 16-bit words and memory has a byte for each of them;
registers are counted from 0 to 15; the stack pointer stays within the slots as long as nothing is
pushed on a full stack or popped from an empty one.
-/

namespace XoChip

open Access

/-! ## Memory -/

namespace Memory

def read? (m : Memory) (index : Nat) : Option UInt8 := m.bytes[index]?

def write? (m : Memory) (index : Nat) (b : UInt8) : Option Memory :=
  if h : index < m.bytes.size then
    some ⟨m.bytes.set index b h, by rw [Array.size_set, m.size_bytes]⟩
  else none

def readMany? (m : Memory) (a : UInt16) (count : Nat) : Option (List UInt8) :=
  (List.range count).mapM fun k => m.read? (a + UInt16.ofNat k).toNat

def readWord? (m : Memory) (a : UInt16) : Option UInt16 := do
  let high ← m.read? a.toNat
  let low ← m.read? (a + 1).toNat
  return UInt16.ofNat (high.toNat * 0x100 + low.toNat)

/-- Every address names a byte. -/
theorem read?_eq (m : Memory) (a : UInt16) : m.read? a.toNat = some (m.read a) :=
  Array.getElem?_eq_getElem (m.toNat_lt_size a)

theorem write?_eq (m : Memory) (a : UInt16) (b : UInt8) :
    m.write? a.toNat b = some (m.write a b) := dif_pos (m.toNat_lt_size a)

theorem readMany?_eq (m : Memory) (a : UInt16) (count : Nat) :
    m.readMany? a count = some (m.readMany a count) :=
  mapM_eq_some fun _ _ => m.read?_eq _

theorem readWord?_eq (m : Memory) (a : UInt16) : m.readWord? a = some (m.readWord a) := by
  rw [readWord?, read?_eq, read?_eq]
  rfl

end Memory

/-! ## Registers -/

namespace Register

/-- The numbers of the registers from `x` to `y`, downwards if `y` is the smaller. -/
def indices (x y : Nat) : List Nat :=
  if x ≤ y then (List.range (y - x + 1)).map (x + ·) else (List.range (x - y + 1)).map (x - ·)

/-- A range of registers does not leave the file. -/
theorem indices_eq (x y : Register) : indices x.val y.val = (range x y).map Fin.val := by
  have hx := x.isLt
  have hy := y.isLt
  unfold indices range
  split
  · rw [List.map_map, List.map_congr_left]
    intro k hk
    rw [List.mem_range] at hk
    exact (Nat.mod_eq_of_lt (by omega)).symm
  · rw [List.map_map, List.map_congr_left]
    intro k hk
    exact (Nat.mod_eq_of_lt (by omega)).symm

end Register

namespace Registers

def set? (v : Registers) (index : Nat) (b : UInt8) : Option Registers :=
  if h : index < 16 then some (v.set index b h) else none

/-- Copy the first registers of `source` over those of `target`. -/
def copyFront? (target source : Registers) (count : Nat) : Option Registers :=
  if count ≤ target.size ∧ count ≤ source.size then
    some (target.setFirst (source.toList.take count))
  else none

theorem set?_val (v : Registers) (r : Register) (b : UInt8) :
    set? v r.val b = some (v.set r.val b r.val_lt) := dif_pos r.isLt

theorem copyFront?_eq (target source : Registers) (x : Register) :
    copyFront? target source (x.val + 1) = some (target.setFirst (source.upTo x)) :=
  if_pos ⟨x.isLt, x.isLt⟩

end Registers

/-! ## The call stack -/

namespace CallStack

def push? (s : CallStack) (a : UInt16) : Option CallStack :=
  if h : s.depth < 64 then some { slots := s.slots.set s.depth a h, depth := s.depth + 1 }
  else none

def pop? (s : CallStack) : Option (UInt16 × CallStack) := do
  let depth ← sub? s.depth 1
  let a ← s.slots[depth]?
  return (a, { s with depth })

theorem push?_eq {s : CallStack} (free : s.isFull = false) (le : s.depth ≤ capacity) (a : UInt16) :
    s.push? a = some (s.push a) := by
  have lt : s.depth < 64 := by
    simp only [isFull, beq_eq_false_iff_ne, capacity] at free le
    omega
  have slots : s.slots.set s.depth a lt = s.slots.setIfInBounds s.depth a := by
    apply Vector.ext
    intro k hk
    rw [Vector.getElem_set, Vector.getElem_setIfInBounds]
  rw [push?, dif_pos lt, push, slots]

theorem pop?_eq {s : CallStack} (used : s.isEmpty = false) (le : s.depth ≤ capacity) :
    s.pop? = some (s.top, s.pop) := by
  have pos : 1 ≤ s.depth := by
    simp only [isEmpty, beq_eq_false_iff_ne] at used
    omega
  have lt : s.depth - 1 < 64 := by
    simp only [capacity] at le
    omega
  have top : s.slots[s.depth - 1]? = some s.top := by
    rw [Vector.getElem?_eq_getElem lt, CallStack.top, Array.getD_eq_getD_getElem?,
      Vector.getElem?_toArray, Vector.getElem?_eq_getElem lt, Option.getD_some]
  rw [pop?, sub?_eq pos]
  simp only [Option.bind_eq_bind, Option.bind_some, top]
  rfl

end CallStack

/-! ## Effects of instructions -/

namespace State

theorem get_set (s : State) (x z : Register) (b : UInt8) :
    (s.set x b).get z = if z = x then b else s.get z := by
  have same : z = x ↔ x.val = z.val := eq_comm.trans Fin.ext_iff
  rw [get, set, Registers.get_set]
  simp only [same]
  rfl

def get? (s : State) (index : Nat) : Option UInt8 := s.v[index]?

def set? (s : State) (index : Nat) (b : UInt8) : Option State :=
  (s.v.set? index b).map fun v => { s with v }

def setWithFlag? (s : State) (d : Dialect) (x : Register) (result : UInt8) (flag : Bool) :
    Option State :=
  let flag : UInt8 := if flag then 1 else 0
  if d.resultOverFlag then do (← s.set? Register.flag.val flag).set? x.val result
  else do (← s.set? x.val result).set? Register.flag.val flag

def setLogic? (s : State) (d : Dialect) (x : Register) (result : UInt8) : Option State := do
  let s ← s.set? x.val result
  if d.logicResetsVF then s.set? Register.flag.val 0 else some s

def alu? (s : State) (d : Dialect) (op : AluOp) (x y : Register) : Option State := do
  let a ← s.get? x.val
  let b ← s.get? y.val
  match op with
  | .copy => s.set? x.val b
  | .or => s.setLogic? d x (a ||| b)
  | .and => s.setLogic? d x (a &&& b)
  | .xor => s.setLogic? d x (a ^^^ b)
  | .add => s.setWithFlag? d x (a + b) (255 < a.toNat + b.toNat)
  | .sub => s.setWithFlag? d x (a - b) (b ≤ a)
  | .subFrom => s.setWithFlag? d x (b - a) (a ≤ b)
  | .shiftRight => s.setWithFlag? d x (a >>> 1) (a &&& 1 != 0)
  | .shiftLeft => s.setWithFlag? d x (a <<< 1) (a &&& 0x80 != 0)

/-- Store registers one after the other, the first of them `offset` bytes behind `I`. -/
def storeEach? (s : State) (offset : Nat) (m : Memory) : List Nat → Option Memory
  | [] => some m
  | index :: rest => do
    let b ← s.get? index
    let m ← m.write? (s.i + UInt16.ofNat offset).toNat b
    s.storeEach? (offset + 1) m rest

/-- Load registers one after the other, the first of them from `offset` bytes behind `I`. -/
def loadEach? (s : State) (offset : Nat) (v : Registers) : List Nat → Option Registers
  | [] => some v
  | index :: rest => do
    let b ← s.memory.read? (s.i + UInt16.ofNat offset).toNat
    let v ← v.set? index b
    s.loadEach? (offset + 1) v rest

def storeAll? (s : State) (indices : List Nat) : Option State :=
  (s.storeEach? 0 s.memory indices).map fun memory => { s with memory }

def loadAll? (s : State) (indices : List Nat) : Option State :=
  (s.loadEach? 0 s.v indices).map fun v => { s with v }

def storeDecimal? (s : State) (x : Register) : Option State := do
  let b ← s.get? x.val
  let m ← s.memory.write? s.i.toNat (b / 100)
  let m ← m.write? (s.i + 1).toNat (b % 100 / 10)
  let m ← m.write? (s.i + 2).toNat (b % 10)
  return { s with memory := m }

def saveFlags? (s : State) (x : Register) : Option State :=
  (s.flags.copyFront? s.v (x.val + 1)).map fun flags => { s with flags }

def loadFlags? (s : State) (x : Register) : Option State :=
  (s.v.copyFront? s.flags (x.val + 1)).map fun v => { s with v }

def call? (s : State) (target : UInt16) : Option State :=
  (s.stack.push? s.pc).map fun stack => { s with stack, pc := target }

def ret? (s : State) : Option State :=
  s.stack.pop?.map fun (pc, stack) => { s with stack, pc }

/-- Jump to an address plus a register; the number of the register may be the address without its
    low byte. -/
def jumpPlus? (s : State) (d : Dialect) (nnn : UInt16) : Option State := do
  let b ← s.get? (if d.jumpByVX then nnn.toNat / 0x100 else 0)
  return { s with pc := nnn + b.toUInt16 }

def setIndexLong? (s : State) : Option State :=
  (s.memory.readWord? s.pc).map fun i => { s with i, pc := s.pc + 2 }

variable (s : State) (d : Dialect) (x y : Register)

@[simp] theorem get?_eq : s.get? x.val = some (s.get x) := s.v.getElem?_val x

@[simp] theorem set?_eq (b : UInt8) : s.set? x.val b = some (s.set x b) := by
  rw [set?, Registers.set?_val]
  rfl

theorem setWithFlag?_eq (result : UInt8) (flag : Bool) :
    s.setWithFlag? d x result flag = some (s.setWithFlag d x result flag) := by
  simp only [setWithFlag?, set?_eq, Option.bind_eq_bind, Option.bind_some, setWithFlag]
  split <;> rfl

theorem setLogic?_eq (result : UInt8) :
    s.setLogic? d x result = some (s.setLogic d x result) := by
  simp only [setLogic?, set?_eq, Option.bind_eq_bind, Option.bind_some, setLogic]
  split <;> rfl

theorem alu?_eq (op : AluOp) : s.alu? d op x y = some (s.alu d op x y) := by
  rw [alu?, get?_eq, get?_eq]
  cases op with
  | copy => exact set?_eq s x _
  | or | and | xor => exact setLogic?_eq s d x _
  | add | sub | subFrom | shiftRight | shiftLeft => exact setWithFlag?_eq s d x _ _

theorem ofNat_succ_offset (i : UInt16) (offset : Nat) :
    i + UInt16.ofNat (offset + 1) = i + UInt16.ofNat offset + 1 := by
  rw [UInt16.ofNat_add, ← UInt16.add_assoc]
  rfl

theorem storeEach?_eq (offset : Nat) (m : Memory) (registers : List Register) :
    s.storeEach? offset m (registers.map Fin.val) =
      some (m.writeMany (s.i + UInt16.ofNat offset) (registers.map s.v.get)) := by
  induction registers generalizing offset m with
  | nil => rfl
  | cons r registers ih =>
    rw [List.map_cons, storeEach?, get?_eq]
    simp only [Option.bind_eq_bind, Option.bind_some, Memory.write?_eq]
    rw [ih, ofNat_succ_offset]
    rfl

theorem loadEach?_eq (offset : Nat) (v : Registers) (registers : List Register) :
    s.loadEach? offset v (registers.map Fin.val) =
      some (v.setMany (registers.zip ((List.range' offset registers.length).map fun k =>
        s.memory.read (s.i + UInt16.ofNat k)))) := by
  induction registers generalizing offset v with
  | nil => rfl
  | cons r registers ih =>
    rw [List.map_cons, loadEach?, Memory.read?_eq]
    simp only [Option.bind_eq_bind, Option.bind_some, Registers.set?_val]
    rw [ih]
    rfl

theorem storeAll?_eq (registers : List Register) :
    s.storeAll? (registers.map Fin.val) =
      some { s with memory := s.memory.writeMany s.i (registers.map s.v.get) } := by
  have start : s.i + UInt16.ofNat 0 = s.i := UInt16.add_zero _
  rw [storeAll?, storeEach?_eq, start]
  rfl

theorem loadAll?_eq (registers : List Register) :
    s.loadAll? (registers.map Fin.val) =
      let bytes := s.memory.readMany s.i registers.length
      some { s with v := s.v.setMany (registers.zip bytes) } := by
  rw [loadAll?, loadEach?_eq, ← List.range_eq_range']
  rfl

/-- The registers from `VX` to `VY` fit into memory wherever `I` points. -/
theorem storeRange?_eq :
    s.storeAll? (Register.indices x.val y.val) = some (s.storeRange x y) := by
  rw [Register.indices_eq, storeAll?_eq]
  rfl

theorem loadRange?_eq :
    s.loadAll? (Register.indices x.val y.val) = some (s.loadRange x y) := by
  rw [Register.indices_eq, loadAll?_eq]
  rfl

theorem storeRegisters?_eq :
    s.storeAll? (Register.indices 0 x.val) = some (s.storeRegisters x) := by
  have stored := storeRange?_eq s 0 x
  rw [storeRegisters, Registers.upTo_eq]
  exact stored

theorem loadRegisters?_eq :
    s.loadAll? (Register.indices 0 x.val) = some (s.loadRegisters x) := by
  have loaded := loadRange?_eq s 0 x
  have length : (Register.range 0 x).length = x.val + 1 := by
    rw [Register.range_zero, List.length_map, List.length_range]
  rw [loadRange, length, Registers.setMany_range_zero _ _ (Memory.length_readMany _ _ _)] at loaded
  exact loaded

theorem storeDecimal?_eq : s.storeDecimal? x = some (s.storeDecimal x) := by
  rw [storeDecimal?, get?_eq]
  simp only [Option.bind_eq_bind, Option.bind_some, Memory.write?_eq]
  rw [storeDecimal, Memory.writeMany, Memory.writeMany, Memory.writeMany, UInt16.add_assoc]
  rfl

theorem saveFlags?_eq : s.saveFlags? x = some (s.saveFlags x) := by
  rw [saveFlags?, Registers.copyFront?_eq]
  rfl

theorem loadFlags?_eq : s.loadFlags? x = some (s.loadFlags x) := by
  rw [loadFlags?, Registers.copyFront?_eq]
  rfl

theorem setIndexLong?_eq : s.setIndexLong? = some s.setIndexLong := by
  rw [setIndexLong?, Memory.readWord?_eq]
  rfl

variable {s}

theorem call?_eq (free : s.stack.isFull = false) (le : s.stack.depth ≤ CallStack.capacity)
    (target : UInt16) : s.call? target = some (s.call target) := by
  rw [call?, CallStack.push?_eq free le]
  rfl

theorem ret?_eq (used : s.stack.isEmpty = false) (le : s.stack.depth ≤ CallStack.capacity) :
    s.ret? = some s.ret := by
  rw [ret?, CallStack.pop?_eq used le]
  rfl

/-- The address of a jump has twelve bits, so that its highest digit is the number of a register. -/
theorem jumpPlus?_eq {nnn : UInt16} (twelve : nnn.toNat < 0x1000) :
    s.jumpPlus? d nnn = some (s.jumpPlus d nnn) := by
  have digit : nnn.toNat / 0x100 < 16 := by omega
  have index : (if d.jumpByVX then nnn.toNat / 0x100 else 0) =
      (if d.jumpByVX then Fin.ofNat 16 (nnn.toNat / 0x100) else 0 : Register).val := by
    split
    · exact (Nat.mod_eq_of_lt digit).symm
    · rfl
  rw [jumpPlus?, index, get?_eq]
  rfl

end State

end XoChip
