import XoChip.Instruction.Word

/-!
# The instruction set

`Instruction` is one constructor per operation of CHIP-8, SUPER-CHIP and XO-CHIP, and
`Instruction.decode?` reads it off a word. Words outside the set decode to `none`; what a
machine does about them is decided where instructions are executed.
-/

namespace XoChip

/-- The two-register operations of the family `8XY_`, which act on `VX` and `VY`. -/
inductive AluOp
  | copy
  | or
  | and
  | xor
  | add
  | sub
  | shiftRight
  | subFrom
  | shiftLeft
  deriving DecidableEq, Repr

/-- A decoded instruction. Registers are named `x` and `y`, immediate bytes `nn`, addresses
    `nnn`; `I` is the index register. -/
inductive Instruction
  /-- `00E0`: darken the selected planes. -/
  | clear
  /-- `00EE`: return from a subroutine. -/
  | ret
  /-- `00CN`: scroll the selected planes down by `n` lines. -/
  | scrollDown (n : Fin 16)
  /-- `00DN`: scroll the selected planes up by `n` lines. -/
  | scrollUp (n : Fin 16)
  /-- `00FB`: scroll the selected planes right. -/
  | scrollRight
  /-- `00FC`: scroll the selected planes left. -/
  | scrollLeft
  /-- `00FD`: stop the program. -/
  | exit
  /-- `00FE`: switch to the small screen. -/
  | lores
  /-- `00FF`: switch to the large screen. -/
  | hires
  /-- `1NNN` -/
  | jump (nnn : UInt16)
  /-- `2NNN` -/
  | call (nnn : UInt16)
  /-- `3XNN`: skip the next word if `VX` is `nn`. -/
  | skipIfByte (x : Register) (nn : UInt8)
  /-- `4XNN`: skip the next word unless `VX` is `nn`. -/
  | skipUnlessByte (x : Register) (nn : UInt8)
  /-- `5XY0`: skip the next word if `VX` is `VY`. -/
  | skipIfEqual (x y : Register)
  /-- `5XY2`: store the registers from `VX` to `VY` at `I`. -/
  | storeRange (x y : Register)
  /-- `5XY3`: load the registers from `VX` to `VY` from `I`. -/
  | loadRange (x y : Register)
  /-- `6XNN` -/
  | setByte (x : Register) (nn : UInt8)
  /-- `7XNN` -/
  | addByte (x : Register) (nn : UInt8)
  /-- `8XY_` -/
  | alu (op : AluOp) (x y : Register)
  /-- `9XY0`: skip the next word unless `VX` is `VY`. -/
  | skipUnlessEqual (x y : Register)
  /-- `ANNN` -/
  | setIndex (nnn : UInt16)
  /-- `BNNN`: jump to `nnn` plus a register. -/
  | jumpPlus (nnn : UInt16)
  /-- `CXNN`: a random byte, masked by `nn`. -/
  | random (x : Register) (nn : UInt8)
  /-- `DXYN`: draw the sprite at `I` with its corner at `VX`, `VY`. -/
  | draw (x y : Register) (n : Fin 16)
  /-- `EX9E`: skip the next word if the key in `VX` is held. -/
  | skipIfKey (x : Register)
  /-- `EXA1`: skip the next word unless the key in `VX` is held. -/
  | skipUnlessKey (x : Register)
  /-- `F000`: load `I` with the word that follows. -/
  | setIndexLong
  /-- `FN01`: select the planes that drawing acts on. -/
  | selectPlanes (n : Fin 16)
  /-- `F002`: hand the sixteen bytes at `I` to the sound sink as its pattern. -/
  | loadPattern
  /-- `FX07` -/
  | readDelay (x : Register)
  /-- `FX0A`: wait until a key is pressed and released. -/
  | awaitKey (x : Register)
  /-- `FX15` -/
  | setDelay (x : Register)
  /-- `FX18`: sound the pattern for `VX` ticks. -/
  | playSound (x : Register)
  /-- `FX1E` -/
  | addIndex (x : Register)
  /-- `FX29`: point `I` at the small glyph of the digit in `VX`. -/
  | smallGlyph (x : Register)
  /-- `FX30`: point `I` at the large glyph of the digit in `VX`. -/
  | largeGlyph (x : Register)
  /-- `FX33`: store the three decimal digits of `VX` at `I`. -/
  | storeDecimal (x : Register)
  /-- `FX3A`: set the playback rate of the pattern from the pitch in `VX`. -/
  | setPitch (x : Register)
  /-- `FX55`: store `V0` to `VX` at `I`. -/
  | storeRegisters (x : Register)
  /-- `FX65`: load `V0` to `VX` from `I`. -/
  | loadRegisters (x : Register)
  /-- `FX75`: save `V0` to `VX` in the flag registers. -/
  | saveFlags (x : Register)
  /-- `FX85`: load `V0` to `VX` from the flag registers. -/
  | loadFlags (x : Register)
  deriving DecidableEq, Repr

/-- Which operation of the family `8XY_` the lowest nibble selects. -/
def AluOp.ofNibble? (n : Fin 16) : Option AluOp :=
  match n.val with
  | 0x0 => some .copy
  | 0x1 => some .or
  | 0x2 => some .and
  | 0x3 => some .xor
  | 0x4 => some .add
  | 0x5 => some .sub
  | 0x6 => some .shiftRight
  | 0x7 => some .subFrom
  | 0xE => some .shiftLeft
  | _ => none

namespace Instruction

/-- Words whose first byte is zero. -/
def decodeBare? (w : UInt16) : Option Instruction :=
  match (Word.nn w).toNat with
  | 0xE0 => some .clear
  | 0xEE => some .ret
  | 0xFB => some .scrollRight
  | 0xFC => some .scrollLeft
  | 0xFD => some .exit
  | 0xFE => some .lores
  | 0xFF => some .hires
  | _ =>
    match (Word.y w).val with
    | 0xC => some (.scrollDown (Word.n w))
    | 0xD => some (.scrollUp (Word.n w))
    | _ => none

/-- Words of the family `F___`. -/
def decodeExtended? (w : UInt16) : Option Instruction :=
  let x := Word.x w
  match (Word.nn w).toNat with
  | 0x00 => if x = 0 then some .setIndexLong else none
  | 0x01 => some (.selectPlanes x)
  | 0x02 => if x = 0 then some .loadPattern else none
  | 0x07 => some (.readDelay x)
  | 0x0A => some (.awaitKey x)
  | 0x15 => some (.setDelay x)
  | 0x18 => some (.playSound x)
  | 0x1E => some (.addIndex x)
  | 0x29 => some (.smallGlyph x)
  | 0x30 => some (.largeGlyph x)
  | 0x33 => some (.storeDecimal x)
  | 0x3A => some (.setPitch x)
  | 0x55 => some (.storeRegisters x)
  | 0x65 => some (.loadRegisters x)
  | 0x75 => some (.saveFlags x)
  | 0x85 => some (.loadFlags x)
  | _ => none

/-- The instruction that a word stands for, `none` if it stands for none. -/
def decode? (w : UInt16) : Option Instruction :=
  let x := Word.x w
  let y := Word.y w
  match (Word.family w).val with
  | 0x0 => if x = 0 then decodeBare? w else none
  | 0x1 => some (.jump (Word.nnn w))
  | 0x2 => some (.call (Word.nnn w))
  | 0x3 => some (.skipIfByte x (Word.nn w))
  | 0x4 => some (.skipUnlessByte x (Word.nn w))
  | 0x5 =>
    match (Word.n w).val with
    | 0x0 => some (.skipIfEqual x y)
    | 0x2 => some (.storeRange x y)
    | 0x3 => some (.loadRange x y)
    | _ => none
  | 0x6 => some (.setByte x (Word.nn w))
  | 0x7 => some (.addByte x (Word.nn w))
  | 0x8 => (AluOp.ofNibble? (Word.n w)).map (.alu · x y)
  | 0x9 => if Word.n w = 0 then some (.skipUnlessEqual x y) else none
  | 0xA => some (.setIndex (Word.nnn w))
  | 0xB => some (.jumpPlus (Word.nnn w))
  | 0xC => some (.random x (Word.nn w))
  | 0xD => some (.draw x y (Word.n w))
  | 0xE =>
    match (Word.nn w).toNat with
    | 0x9E => some (.skipIfKey x)
    | 0xA1 => some (.skipUnlessKey x)
    | _ => none
  | _ => decodeExtended? w

end Instruction

end XoChip
