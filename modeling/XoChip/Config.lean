import XoChip.Dialect
import XoChip.Scheduler
import XoChip.Toml.Reader

/-!
# Configuration of a host

A configuration file is a TOML text with the keys `cycles_per_tick` and `sample_rate` and a table
of toggles. Keys that are missing have their defaults and unknown ones are passed over.
-/

namespace XoChip

/-- Settings of a host: instructions per frame, samples per second, and the dialect. -/
structure Config where
  cycles : Nat := 10
  sampleRate : UInt32 := 44100
  dialect : Dialect := {}
  deriving DecidableEq, Repr

namespace Config

/-- The pace at which a scheduler drives its machine. -/
def pace (c : Config) : Pace := { cycles := c.cycles }

/-- A natural number below `bound`. -/
def natural? (bound : Nat) : Toml → Option Nat
  | .integer value => if 0 ≤ value ∧ value < bound then some value.toNat else none
  | _ => none

def truth? : Toml → Option Bool
  | .boolean value => some value
  | _ => none

/-- The value of a key: the default if it is missing, and nothing if it cannot be read. -/
def setting? {α : Type} (es : Toml.Entries) (key : String) (read : Toml → Option α) (default : α) :
    Option α :=
  match es.get? key.toList with
  | none => some default
  | some value => read value

/-- A dialect from a table of toggles, or from an array of their values in order, which may be cut
    short and whose surplus is passed over. A date or time counts as a table that names no
    toggle. -/
def dialect? : Toml → Option Dialect
  | .table _ es =>
    Toggle.all.foldlM (fun d t => (setting? es t.key truth? false).map (d.set t)) {}
  | .array values =>
    (Toggle.all.zip values).foldlM (fun d (t, value) => (truth? value).map (d.set t)) {}
  | .dateTime _ => some {}
  | _ => none

def ofEntries? (es : Toml.Entries) : Option Config := do
  let default : Config := {}
  return {
    cycles := ← setting? es "cycles_per_tick" (natural? UInt64.size) default.cycles
    sampleRate :=
      ← setting? es "sample_rate" (fun v => (natural? UInt32.size v).map UInt32.ofNat)
        default.sampleRate
    dialect := ← setting? es "quirks" dialect? default.dialect }

def parse? (text : String) : Option Config := (Toml.parse? text.toList).bind ofEntries?

end Config

end XoChip
