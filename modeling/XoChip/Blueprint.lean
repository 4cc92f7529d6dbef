import XoChip.Machine
import XoChip.Snapshot

/-!
# Building machines

A blueprint says what a machine is made of: a program or a snapshot, a dialect, and the seed of
its random generator. Building it either gives a machine, with the display in the state that
belongs to it, or a failure, and then the surroundings are not touched.
-/

namespace XoChip

/-- What a machine is made of. -/
structure Blueprint where
  program : Option (List UInt8) := none
  snapshot : Option Snapshot := none
  dialect : Dialect := {}
  seed : UInt64 := 0

namespace Blueprint

/-- The state and the display that a blueprint asks for. A snapshot is preferred to a program; a
    program starts on a display that has been reset. -/
def start (b : Blueprint) (now : Nat) : Except Error (State × Display) :=
  match b.snapshot, b.program with
  | some snapshot, _ =>
    match snapshot.restore now with
    | .ok result => .ok result
    | .error flaw => .error (.invalidSnapshot flaw)
  | none, some program =>
    match State.load program now with
    | .ok state => .ok (state, Display.reset)
    | .error cause => .error cause
  | none, none => .error .missingProgram

def build (b : Blueprint) (c : Context) : Except Error Console :=
  match b.start c.clock.now with
  | .ok (state, display) =>
    .ok { machine := { state, dialect := b.dialect, random := .ofSeed b.seed }
          context := { c with display } }
  | .error cause => .error cause

end Blueprint

end XoChip
