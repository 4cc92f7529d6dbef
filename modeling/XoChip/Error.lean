/-!
# Failures and their messages

What can go wrong for the host of a machine, as causes. A program that stops by itself is not a
failure; that is a `Halt`. Each cause has one message, given by `Error.message`.
-/

namespace XoChip

/-- The first thing found wrong with a snapshot. -/
inductive SnapshotFlaw
  | version (version : UInt32)
  /-- The stack has the wrong length or its depth exceeds it. -/
  | stack (entries : Nat) (depth : UInt64)
  | memory (size : Nat)
  /-- The plane selection is none of the four. -/
  | plane (selection : UInt8)
  /-- The dimensions are not those of a screen, or the planes do not fit them. -/
  | frame (width height : UInt64)
  /-- The frame belongs to the other screen mode. -/
  | mode (width height : UInt64) (hires : Bool)
  deriving DecidableEq, Repr

def SnapshotFlaw.message : SnapshotFlaw → String
  | .version v => s!"unsupported version {v.toNat}"
  | .stack entries depth => s!"stack of {entries} entries with sp {depth.toNat}"
  | .memory size => s!"{size} bytes of memory"
  | .plane selection => s!"target plane {selection.toNat}"
  | .frame width height => s!"bad {width.toNat}x{height.toNat} frame"
  | .mode width height hires =>
    let name := if hires then "hires" else "lores"
    s!"{width.toNat}x{height.toNat} frame in {name} mode"

/-- A failure that the host of a machine is told about. -/
inductive Error
  /-- The program is larger than the memory behind its start. -/
  | programTooLarge (size max : Nat)
  /-- A machine was asked for without a program or a snapshot. -/
  | missingProgram
  | invalidSnapshot (flaw : SnapshotFlaw)
  /-- The text is not one of a snapshot. -/
  | unreadable
  | unknownToggle (name : String)
  /-- An entry of a dialect's text has no colon or no truth value. -/
  | malformedEntry (entry : String)
  deriving DecidableEq, Repr

def Error.message : Error → String
  | .programTooLarge size max =>
    s!"program of {size} bytes does not fit into {max} bytes of program memory"
  | .missingProgram => "neither program nor snapshot provided"
  | .invalidSnapshot flaw => "invalid snapshot: " ++ flaw.message
  | .unreadable => "snapshot encoding failed"
  | .unknownToggle name => "unknown quirk `" ++ name ++ "`"
  | .malformedEntry entry => "malformed quirk entry `" ++ entry ++ "`"

end XoChip
