import XoChip.Text.Numeral

/-!
# Halts

Why a program stopped by itself, together with the address of the instruction that stopped it.
-/

namespace XoChip

/-- A reason to stop. -/
inductive Halt
  | exit (pc : UInt16)
  /-- A jump or call to itself, which would never get anywhere. -/
  | spin (pc : UInt16)
  /-- The word is no instruction. -/
  | illegal (pc word : UInt16)
  /-- A return without a call. -/
  | underflow (pc : UInt16)
  /-- A call with no slot left on the stack. -/
  | overflow (pc : UInt16)
  /-- A selection of planes that do not exist. -/
  | badPlane (pc : UInt16) (planes : UInt8)
  deriving DecidableEq, Repr

namespace Halt

/-- The address of the instruction that stopped the program. -/
def pc : Halt → UInt16
  | exit pc | spin pc | illegal pc _ | underflow pc | overflow pc | badPlane pc _ => pc

def message : Halt → String
  | exit pc => "EXIT at " ++ Numeral.word pc
  | spin pc => "SPIN at " ++ Numeral.word pc
  | illegal pc word => "ILLOP " ++ Numeral.word word ++ " at " ++ Numeral.word pc
  | underflow pc => "STACK UNDERFLOW at " ++ Numeral.word pc
  | overflow pc => "STACK OVERFLOW at " ++ Numeral.word pc
  | badPlane pc planes => s!"INVALID PLANE {planes.toNat} at " ++ Numeral.word pc

end Halt

end XoChip
