import XoChip.Machine

/-!
# Machines in brief

One-line texts of a machine and of its surroundings, for people who look for a fault.
-/

namespace XoChip

/-- A value between the braces of a record called `name`. -/
def braced (name : String) (fields : List (String × String)) : String :=
  name ++ " \x7b " ++
    String.intercalate ", " (fields.map fun (field, value) => field ++ ": " ++ value) ++ " \x7d"

/-- A halt in brief. Addresses are decimal here. -/
def Halt.summary : Halt → String
  | exit pc => braced "Exit" [("pc", toString pc.toNat)]
  | spin pc => braced "Spin" [("pc", toString pc.toNat)]
  | illegal pc word =>
    braced "IllegalOpcode" [("pc", toString pc.toNat), ("opcode", toString word.toNat)]
  | underflow pc => braced "StackUnderflow" [("pc", toString pc.toNat)]
  | overflow pc => braced "StackOverflow" [("pc", toString pc.toNat)]
  | badPlane pc planes =>
    braced "InvalidBitPlane" [("pc", toString pc.toNat), ("plane", toString planes.toNat)]

def Dialect.summary (d : Dialect) : String :=
  braced "Quirks" (Toggle.all.map fun t => (t.key, toString (d.get t)))

def State.summary (s : State) : String :=
  let registers := String.intercalate ", " (s.v.toList.map fun b => toString b.toNat)
  let halted :=
    match s.halted with
    | none => "None"
    | some reason => "Some(" ++ reason.summary ++ ")"
  braced "MachineState"
    [("v", "[" ++ registers ++ "]"),
     ("i", Numeral.word s.i),
     ("pc", Numeral.word s.pc),
     ("sp", toString s.stack.depth),
     ("halted", halted)]

def Machine.summary (m : Machine) : String :=
  braced "Interpreter" [("state", m.state.summary), ("quirks", m.dialect.summary)]

def Context.summary (c : Context) : String :=
  braced "Context" [("keypad", c.keypad.summary), ("hires", toString c.display.hires)]

end XoChip
