import XoChip.Font
import XoChip.Instruction
import XoChip.Dialect
import XoChip.Error
import XoChip.Timer
import XoChip.Machine.CallStack
import XoChip.Machine.Halt
import XoChip.Machine.Memory
import XoChip.Machine.Registers

/-!
# The state of a machine

All that a machine has for itself: registers, stack, memory, index and program counter, the
delay timer, and whether it has stopped. The effects of instructions that touch nothing else are
functions on states here.
-/

namespace XoChip

/-- Where programs are loaded and start. -/
def programStart : UInt16 := 0x200

/-- How many bytes a program may have. -/
def programMax : Nat := Memory.size - programStart.toNat

/-- The state of a machine. -/
structure State where
  v : Registers := Registers.blank
  /-- Registers that outlive the program. -/
  flags : Registers := Registers.blank
  stack : CallStack := {}
  memory : Memory := Memory.blank
  i : UInt16 := 0
  pc : UInt16 := programStart
  halted : Option Halt := none
  delay : Timer
  deriving DecidableEq, Inhabited

namespace State

def blank (now : Nat) : State := { delay := .expired now }

/-- A machine with both alphabets and a program in memory, if the program fits. -/
def load (program : List UInt8) (now : Nat) : Except Error State :=
  if program.length ≤ programMax then
    let memory := Memory.blank.writeMany Font.smallStart Font.small
    let memory := memory.writeMany Font.largeStart Font.large
    .ok { blank now with memory := memory.writeMany programStart program }
  else .error (.programTooLarge program.length programMax)

def get (s : State) (r : Register) : UInt8 := s.v.get r

def set (s : State) (r : Register) (b : UInt8) : State := { s with v := s.v.set r.val b r.val_lt }

/-- Pass over the next word if the condition holds. -/
def skipIf (s : State) (condition : Bool) : State :=
  if condition then { s with pc := s.pc + 2 } else s

/-! ## Arithmetic -/

/-- Put a result into `VX` and a flag into `VF`. If they are the same register the flag remains,
    unless the dialect says otherwise. -/
def setWithFlag (s : State) (d : Dialect) (x : Register) (result : UInt8) (flag : Bool) : State :=
  let flag : UInt8 := if flag then 1 else 0
  if d.resultOverFlag then (s.set .flag flag).set x result
  else (s.set x result).set .flag flag

/-- Put the result of a bitwise operation into `VX`; some dialects clear `VF` after it. -/
def setLogic (s : State) (d : Dialect) (x : Register) (result : UInt8) : State :=
  if d.logicResetsVF then (s.set x result).set .flag 0 else s.set x result

/-- The operations of the family `8XY_`. The flag of a sum is its carry, that of a difference is
    set when nothing was borrowed, and that of a shift is the bit shifted out. Shifts act on
    `VX` alone. -/
def alu (s : State) (d : Dialect) (op : AluOp) (x y : Register) : State :=
  let a := s.get x
  let b := s.get y
  match op with
  | .copy => s.set x b
  | .or => s.setLogic d x (a ||| b)
  | .and => s.setLogic d x (a &&& b)
  | .xor => s.setLogic d x (a ^^^ b)
  | .add => s.setWithFlag d x (a + b) (255 < a.toNat + b.toNat)
  | .sub => s.setWithFlag d x (a - b) (b ≤ a)
  | .subFrom => s.setWithFlag d x (b - a) (a ≤ b)
  | .shiftRight => s.setWithFlag d x (a >>> 1) (a &&& 1 != 0)
  | .shiftLeft => s.setWithFlag d x (a <<< 1) (a &&& 0x80 != 0)

/-! ## Memory -/

/-- Store the registers from `VX` to `VY` at `I`. -/
def storeRange (s : State) (x y : Register) : State :=
  { s with memory := s.memory.writeMany s.i ((Register.range x y).map s.v.get) }

/-- Load the registers from `VX` to `VY` from `I`. -/
def loadRange (s : State) (x y : Register) : State :=
  let registers := Register.range x y
  { s with v := s.v.setMany (registers.zip (s.memory.readMany s.i registers.length)) }

/-- Store `V0` to `VX` at `I`. -/
def storeRegisters (s : State) (x : Register) : State :=
  { s with memory := s.memory.writeMany s.i (s.v.upTo x) }

/-- Load `V0` to `VX` from `I`. -/
def loadRegisters (s : State) (x : Register) : State :=
  { s with v := s.v.setFirst (s.memory.readMany s.i (x.val + 1)) }

/-- Store the three decimal digits of `VX` at `I`. -/
def storeDecimal (s : State) (x : Register) : State :=
  let b := s.get x
  { s with memory := s.memory.writeMany s.i [b / 100, b % 100 / 10, b % 10] }

/-- Save `V0` to `VX` in the flag registers. -/
def saveFlags (s : State) (x : Register) : State :=
  { s with flags := s.flags.setFirst (s.v.upTo x) }

/-- Load `V0` to `VX` from the flag registers. -/
def loadFlags (s : State) (x : Register) : State :=
  { s with v := s.v.setFirst (s.flags.upTo x) }

/-! ## Control -/

/-- Call a subroutine; `s.pc` is where it will return to. -/
def call (s : State) (target : UInt16) : State :=
  { s with stack := s.stack.push s.pc, pc := target }

def ret (s : State) : State := { s with stack := s.stack.pop, pc := s.stack.top }

/-- Jump to an address plus `V0` or, in some dialects, plus the register that the address's
    highest digit names. -/
def jumpPlus (s : State) (d : Dialect) (nnn : UInt16) : State :=
  let r : Register := if d.jumpByVX then Fin.ofNat 16 (nnn.toNat / 0x100) else 0
  { s with pc := nnn + (s.get r).toUInt16 }

/-- Load `I` with the word behind the instruction and pass over it. -/
def setIndexLong (s : State) : State :=
  { s with i := s.memory.readWord s.pc, pc := s.pc + 2 }

def word (s : State) : UInt16 := s.memory.readWord s.pc

/-- The instruction that `word` stands for at the program counter, or the reason why the program
    stops there. Whether it stops is decided before anything is changed. A call on a full stack is
    an overflow even if it is a call to itself. -/
def judge (s : State) (word : UInt16) : Except Halt Instruction :=
  match Instruction.decode? word with
  | none => .error (.illegal s.pc word)
  | some .exit => .error (.exit s.pc)
  | some .ret => if s.stack.isEmpty then .error (.underflow s.pc) else .ok .ret
  | some (.jump nnn) => if nnn = s.pc then .error (.spin s.pc) else .ok (.jump nnn)
  | some (.call nnn) =>
    if s.stack.isFull then .error (.overflow s.pc)
    else if nnn = s.pc then .error (.spin s.pc)
    else .ok (.call nnn)
  | some (.selectPlanes n) =>
    if n ≤ 3 then .ok (.selectPlanes n) else .error (.badPlane s.pc (UInt8.ofNat n.val))
  | some i => .ok i

/-- The instruction at the program counter, or the reason why the program stops there. -/
def next (s : State) : Except Halt Instruction := s.judge s.word

end State

end XoChip
