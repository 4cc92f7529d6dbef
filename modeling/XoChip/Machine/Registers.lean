import XoChip.Instruction.Word

/-!
# Register files

Sixteen bytes. The last register, `VF`, doubles as the flag of arithmetic and drawing.
-/

namespace XoChip

/-- The values of the sixteen registers. -/
abbrev Registers := Vector UInt8 16

/-- The register that receives flags. -/
def Register.flag : Register := 15

/-- The registers from `x` to `y`, downwards if `y` is the smaller. -/
def Register.range (x y : Register) : List Register :=
  if x.val ≤ y.val then (List.range (y.val - x.val + 1)).map fun k => Fin.ofNat 16 (x.val + k)
  else (List.range (x.val - y.val + 1)).map fun k => Fin.ofNat 16 (x.val - k)

namespace Registers

def blank : Registers := Vector.replicate 16 0

/-- Change several registers, one after the other. -/
def setMany (v : Registers) : List (Register × UInt8) → Registers
  | [] => v
  | (r, b) :: rest => setMany (v.set r.val b r.val_lt) rest

/-- The values of the first `x + 1` registers. -/
def upTo (v : Registers) (x : Register) : List UInt8 := v.toList.take (x.val + 1)

/-- Change the first registers to the given values. -/
def setFirst (v : Registers) (values : List UInt8) : Registers :=
  Vector.ofFn fun r => (values[r.val]?).getD (v.get r)

end Registers

end XoChip
