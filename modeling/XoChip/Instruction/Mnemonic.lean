import XoChip.Instruction.Word
import XoChip.Text.Numeral

/-!
# Mnemonics

The listing notation of the instruction set, as a table. A `Form` says which words it covers, by
the bits that are fixed and their values, and how such a word is written: a name and operands.
A word that no form covers has no mnemonic. The table is for listings alone; execution goes
through `Instruction.decode?`.
-/

namespace XoChip.Mnemonic

/-- What is written at one operand position. -/
inductive Operand
  /-- The register of the second nibble. -/
  | vx
  /-- The register of the third nibble. -/
  | vy
  /-- The registers of the second and third nibbles as a range. -/
  | range
  /-- The low byte. -/
  | byte
  /-- The low twelve bits. -/
  | address
  /-- The lowest nibble, in decimal. -/
  | count
  /-- The second nibble, in decimal. -/
  | planes
  | text (literal : String)
  deriving DecidableEq, Repr

/-- Words that agree with `value` on the bits of `mask`, and their notation. -/
structure Form where
  mask : UInt16
  value : UInt16
  name : String
  operands : List Operand := []

/-- Whether a word has the form's fixed bits. -/
def Form.covers (form : Form) (w : UInt16) : Bool := w &&& form.mask == form.value

def registerName (r : Register) : String := String.ofList ['V', Numeral.upperDigit r]

/-- How an operand of the word `w` is written. -/
def Operand.render (w : UInt16) : Operand → String
  | .vx => registerName (Word.x w)
  | .vy => registerName (Word.y w)
  | .range => registerName (Word.x w) ++ " - " ++ registerName (Word.y w)
  | .byte => Numeral.byte (Word.nn w)
  | .address => Numeral.word (Word.nnn w)
  | .count => toString (Word.n w).val
  | .planes => toString (Word.x w).val
  | .text literal => literal

/-- The name, then the operands separated by commas. -/
def Form.render (form : Form) (w : UInt16) : String :=
  match form.operands with
  | [] => form.name
  | operands => form.name ++ " " ++ String.intercalate ", " (operands.map (Operand.render w))

/-- Every form of the instruction set. No word is covered twice. -/
def forms : List Form :=
  [⟨0xFFFF, 0x00E0, "CLS", []⟩,
   ⟨0xFFFF, 0x00EE, "RET", []⟩,
   ⟨0xFFFF, 0x00FB, "SCR", []⟩,
   ⟨0xFFFF, 0x00FC, "SCL", []⟩,
   ⟨0xFFFF, 0x00FD, "EXIT", []⟩,
   ⟨0xFFFF, 0x00FE, "LOW", []⟩,
   ⟨0xFFFF, 0x00FF, "HIGH", []⟩,
   ⟨0xFFF0, 0x00C0, "SCD", [.count]⟩,
   ⟨0xFFF0, 0x00D0, "SCU", [.count]⟩,
   ⟨0xF000, 0x1000, "JP", [.address]⟩,
   ⟨0xF000, 0x2000, "CALL", [.address]⟩,
   ⟨0xF000, 0x3000, "SE", [.vx, .byte]⟩,
   ⟨0xF000, 0x4000, "SNE", [.vx, .byte]⟩,
   ⟨0xF00F, 0x5000, "SE", [.vx, .vy]⟩,
   ⟨0xF00F, 0x5002, "SAVE", [.range]⟩,
   ⟨0xF00F, 0x5003, "LOAD", [.range]⟩,
   ⟨0xF000, 0x6000, "LD", [.vx, .byte]⟩,
   ⟨0xF000, 0x7000, "ADD", [.vx, .byte]⟩,
   ⟨0xF00F, 0x8000, "LD", [.vx, .vy]⟩,
   ⟨0xF00F, 0x8001, "OR", [.vx, .vy]⟩,
   ⟨0xF00F, 0x8002, "AND", [.vx, .vy]⟩,
   ⟨0xF00F, 0x8003, "XOR", [.vx, .vy]⟩,
   ⟨0xF00F, 0x8004, "ADD", [.vx, .vy]⟩,
   ⟨0xF00F, 0x8005, "SUB", [.vx, .vy]⟩,
   ⟨0xF00F, 0x8006, "SHR", [.vx, .vy]⟩,
   ⟨0xF00F, 0x8007, "SUBN", [.vx, .vy]⟩,
   ⟨0xF00F, 0x800E, "SHL", [.vx, .vy]⟩,
   ⟨0xF00F, 0x9000, "SNE", [.vx, .vy]⟩,
   ⟨0xF000, 0xA000, "LD", [.text "I", .address]⟩,
   ⟨0xF000, 0xB000, "JP", [.text "V0", .address]⟩,
   ⟨0xF000, 0xC000, "RND", [.vx, .byte]⟩,
   ⟨0xF000, 0xD000, "DRW", [.vx, .vy, .count]⟩,
   ⟨0xF0FF, 0xE09E, "SKP", [.vx]⟩,
   ⟨0xF0FF, 0xE0A1, "SKNP", [.vx]⟩,
   ⟨0xFFFF, 0xF000, "LD", [.text "I", .text "LONG"]⟩,
   ⟨0xF0FF, 0xF001, "PLANE", [.planes]⟩,
   ⟨0xFFFF, 0xF002, "AUDIO", []⟩,
   ⟨0xF0FF, 0xF007, "LD", [.vx, .text "DT"]⟩,
   ⟨0xF0FF, 0xF00A, "LD", [.vx, .text "K"]⟩,
   ⟨0xF0FF, 0xF015, "LD", [.text "DT", .vx]⟩,
   ⟨0xF0FF, 0xF018, "LD", [.text "ST", .vx]⟩,
   ⟨0xF0FF, 0xF01E, "ADD", [.text "I", .vx]⟩,
   ⟨0xF0FF, 0xF029, "LD", [.text "F", .vx]⟩,
   ⟨0xF0FF, 0xF030, "LD", [.text "HF", .vx]⟩,
   ⟨0xF0FF, 0xF033, "LD", [.text "B", .vx]⟩,
   ⟨0xF0FF, 0xF03A, "PITCH", [.vx]⟩,
   ⟨0xF0FF, 0xF055, "LD", [.text "[I]", .vx]⟩,
   ⟨0xF0FF, 0xF065, "LD", [.vx, .text "[I]"]⟩,
   ⟨0xF0FF, 0xF075, "LD", [.text "R", .vx]⟩,
   ⟨0xF0FF, 0xF085, "LD", [.vx, .text "R"]⟩]

def form? (w : UInt16) : Option Form := forms.find? (·.covers w)

/-- The mnemonic of a word, `none` if it is not an instruction. -/
def ofWord? (w : UInt16) : Option String := (form? w).map (·.render w)

def isKnown (w : UInt16) : Bool := (form? w).isSome

/-- A word as listings show it: its mnemonic, or the word itself after two question marks. -/
def listing (w : UInt16) : String := (ofWord? w).getD ("?? " ++ Numeral.word w)

end XoChip.Mnemonic
