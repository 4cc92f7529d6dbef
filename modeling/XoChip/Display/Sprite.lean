import XoChip.Display.Frame

/-!
# Sprites

A sprite is a bit picture. With `lines = 0` it has sixteen rows of two bytes, otherwise `lines`
rows of one byte. Drawing flips the pixels under its set bits and reports whether a lit pixel
went dark; positions wrap around at all four edges of the screen.
-/

namespace XoChip.Sprite

def rowBytes (lines : UInt8) : Nat := if lines = 0 then 2 else 1

def rows (lines : UInt8) : Nat := if lines = 0 then 16 else lines.toNat

/-- Bytes of a sprite for one plane. -/
def planeBytes (lines : UInt8) : Nat := rows lines * rowBytes lines

/-- Bytes of a sprite for all the planes of a selection. -/
def totalBytes (lines : UInt8) (selection : UInt8) : Nat :=
  planeBytes lines * ((selection.toNat % 2) + (selection.toNat / 2 % 2))

/-- The columns of the set bits of a byte, counted from its most significant bit. -/
def setBits (b : UInt8) : List Nat := (List.range 8).filter fun k => b.toNat.testBit (7 - k)

/-- The set bits of a sprite as pairs of line and column, for rows of the given number of bytes.
    The last row may be incomplete. -/
def cells (bytesPerRow : Nat) (bytes : List UInt8) : List (Nat × Nat) :=
  bytes.zipIdx.flatMap fun (b, k) =>
    (setBits b).map fun column => (k / bytesPerRow, 8 * (k % bytesPerRow) + column)

/-- The index of the pixel on which a cell lands when the sprite's corner is at `x`, `y`. -/
def target (r : Resolution) (x y : Nat) (cell : Nat × Nat) : Nat :=
  (y + cell.1) % r.height * r.width + (x + cell.2) % r.width

/-- Flip the pixel with the given index, remembering whether a lit one went dark. -/
def flip (state : Plane × Bool) (index : Nat) : Plane × Bool :=
  (state.1.modify index (!·), state.2 || state.1.getD index false)

/-- Draw a sprite for one plane and tell whether a lit pixel went dark. -/
def draw (r : Resolution) (x y : Nat) (lines : UInt8) (bytes : List UInt8) (p : Plane) :
    Plane × Bool :=
  ((cells (rowBytes lines) bytes).map (target r x y)).foldl flip (p, false)

end XoChip.Sprite
