import XoChip.Json.Reader
import XoChip.Json.Printer
import XoChip.Snapshot

/-!
# Snapshots as JSON

A snapshot is a record of its fields in a fixed order. Bytes, words and sizes are numbers, the
screen is a record of its own, and a halt is an object with one field, which is named after the
reason and holds a record of the details. A machine that has not stopped has `null` there; when
a record is read, that field may also be missing.
-/

namespace XoChip

def Halt.toJson : Halt → Json
  | exit pc => .record [("Exit", .record [("pc", .natural pc.toNat)])]
  | spin pc => .record [("Spin", .record [("pc", .natural pc.toNat)])]
  | illegal pc word =>
    .record [("IllegalOpcode",
      .record [("pc", .natural pc.toNat), ("opcode", .natural word.toNat)])]
  | underflow pc => .record [("StackUnderflow", .record [("pc", .natural pc.toNat)])]
  | overflow pc => .record [("StackOverflow", .record [("pc", .natural pc.toNat)])]
  | badPlane pc planes =>
    .record [("InvalidBitPlane",
      .record [("pc", .natural pc.toNat), ("plane", .natural planes.toNat)])]

/-- The address in a record of a halt that has no other detail. -/
def Halt.onlyPc? (details : Json) : Option UInt16 :=
  match details.toRecord? ["pc"] with
  | some [some pc] => pc.toUInt16?
  | _ => none

/-- The halt of the given name with the given details. -/
def Halt.ofDetails? (name : String) (details : Json) : Option Halt :=
  match name with
  | "Exit" => (onlyPc? details).map exit
  | "Spin" => (onlyPc? details).map spin
  | "StackUnderflow" => (onlyPc? details).map underflow
  | "StackOverflow" => (onlyPc? details).map overflow
  | "IllegalOpcode" =>
    match details.toRecord? ["pc", "opcode"] with
    | some [some pc, some word] => return .illegal (← pc.toUInt16?) (← word.toUInt16?)
    | _ => none
  | "InvalidBitPlane" =>
    match details.toRecord? ["pc", "plane"] with
    | some [some pc, some planes] => return .badPlane (← pc.toUInt16?) (← planes.toUInt8?)
    | _ => none
  | _ => none

def Halt.ofJson? : Json → Option Halt
  | .object [(some name, details)] => ofDetails? (String.ofList name) details
  | _ => none

namespace Snapshot

def registersToJson (v : Registers) : Json := .naturals (v.toList.map UInt8.toNat)

def bytesToJson (bytes : Array UInt8) : Json := .naturals (bytes.toList.map UInt8.toNat)

def displayToJson (d : DisplaySnapshot) : Json :=
  .record
    [("hires", .bool d.hires),
     ("target_plane", .natural d.selection.toNat),
     ("width", .natural d.width.toNat),
     ("height", .natural d.height.toNat),
     ("plane1", bytesToJson d.plane1),
     ("plane2", bytesToJson d.plane2)]

def toJson (s : Snapshot) : Json :=
  .record
    [("version", .natural s.version.toNat),
     ("v", registersToJson s.v),
     ("hp", registersToJson s.flags),
     ("stack", .naturals (s.stack.toList.map UInt16.toNat)),
     ("sp", .natural s.depth.toNat),
     ("mem", bytesToJson s.memory),
     ("i", .natural s.i.toNat),
     ("pc", .natural s.pc.toNat),
     ("halted", (s.halted.map Halt.toJson).getD .null),
     ("delay_timer", .natural s.delay.toNat),
     ("display", displayToJson s.display)]

def bytesOfJson? (j : Json) : Option (Array UInt8) := (j.toListOf? Json.toUInt8?).map List.toArray

/-- The register file that a JSON array of sixteen bytes holds. -/
def registersOfJson? (j : Json) : Option Registers := do
  let bytes ← bytesOfJson? j
  if h : bytes.size = 16 then some ⟨bytes, h⟩ else none

/-- The halt that a field describes, which may be missing or null. -/
def haltedOfJson? : Option Json → Option (Option Halt)
  | none | some .null => some none
  | some j => (Halt.ofJson? j).map some

def displayOfJson? (j : Json) : Option DisplaySnapshot := do
  match ← j.toRecord? ["hires", "target_plane", "width", "height", "plane1", "plane2"] with
  | [some hires, some selection, some width, some height, some plane1, some plane2] =>
    return {
      hires := ← hires.toBool?
      selection := ← selection.toUInt8?
      width := ← width.toUInt64?
      height := ← height.toUInt64?
      plane1 := ← bytesOfJson? plane1
      plane2 := ← bytesOfJson? plane2 }
  | _ => none

def ofJson? (j : Json) : Option Snapshot := do
  match ← j.toRecord? ["version", "v", "hp", "stack", "sp", "mem", "i", "pc", "halted",
      "delay_timer", "display"] with
  | [some version, some v, some flags, some stack, some depth, some memory, some i, some pc,
      halted, some delay, some display] =>
    return {
      version := ← version.toUInt32?
      v := ← registersOfJson? v
      flags := ← registersOfJson? flags
      stack := (← stack.toListOf? Json.toUInt16?).toArray
      depth := ← depth.toUInt64?
      memory := ← bytesOfJson? memory
      i := ← i.toUInt16?
      pc := ← pc.toUInt16?
      halted := ← haltedOfJson? halted
      delay := ← delay.toUInt8?
      display := ← displayOfJson? display }
  | _ => none

def encode (s : Snapshot) : List Char := s.toJson.print

def decode? (cs : List Char) : Option Snapshot := (Json.parse? cs).bind ofJson?

/-- The snapshot that a text describes, or the failure that is reported. -/
def decode (cs : List Char) : Except Error Snapshot :=
  match decode? cs with
  | some s => .ok s
  | none => .error .unreadable

/-- The text of a snapshot as bytes. -/
def toBytes (s : Snapshot) : ByteArray := (String.ofList s.encode).toUTF8

/-- The snapshot whose text the bytes are, or the failure that is reported. -/
def ofBytes (bytes : ByteArray) : Except Error Snapshot :=
  match String.fromUTF8? bytes with
  | some text => decode text.toList
  | none => .error .unreadable

end Snapshot

end XoChip
