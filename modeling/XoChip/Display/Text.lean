import XoChip.Display.Frame

/-!
# Pictures as text

A picture is handed out as a stream of pixels of a drawing library, each with its place and its
brightness. Its text is made from such a stream: every pixel puts a character into the cell at its
place, and the cells are printed row by row.
-/

namespace XoChip

/-- Pixels of a drawing library: points with 32-bit coordinates, in shades of grey. -/
structure PixelType where
  Pixel : Type
  make : (x y : Int32) → (brightness : UInt8) → Pixel
  x : Pixel → Int32
  y : Pixel → Int32
  brightness : Pixel → UInt8

namespace PixelType

/-- Pixels carry the place that they are made with, and one of four shades. -/
structure Lawful (t : PixelType) : Prop where
  x_make : ∀ x y brightness, t.x (t.make x y brightness) = x
  y_make : ∀ x y brightness, t.y (t.make x y brightness) = y
  brightness_make : ∀ x y brightness, brightness ≤ 3 →
    t.brightness (t.make x y brightness) = brightness

/-- Pixels with two bits of grey. -/
def grey : PixelType where
  Pixel := Int32 × Int32 × UInt8
  make x y brightness := (x, y, brightness &&& 3)
  x px := px.1
  y px := px.2.1
  brightness px := px.2.2

theorem lawful_grey : grey.Lawful where
  x_make _ _ _ := rfl
  y_make _ _ _ := rfl
  brightness_make := by
    intro x y b le
    rw [UInt8.le_iff_toNat_le] at le
    have low : b.toNat &&& 2 ^ 2 - 1 = b.toNat % 2 ^ 2 := Nat.and_two_pow_sub_one_eq_mod _ _
    show b &&& 3 = b
    rw [← UInt8.toNat_inj, UInt8.toNat_and]
    exact low.trans (Nat.mod_eq_of_lt (Nat.lt_succ_of_le le))

/-- A coordinate as an index. -/
def index (coordinate : Int32) : Nat := coordinate.toInt64.toUInt64.toNat

/-- The cell of a pixel in rows of the given width. -/
def cell (t : PixelType) (width : Nat) (px : t.Pixel) : Nat :=
  index (t.y px) * width + index (t.x px)

end PixelType

namespace Frame

/-- The characters for the four shades. -/
def shades : Vector Char 4 := #v['.', '#', '+', '@']

/-- The character for a brightness, of which the two lowest bits count. -/
def shadeOf (brightness : UInt8) : Char :=
  shades.get ⟨brightness.toNat % 4, Nat.mod_lt _ (by decide)⟩

/-- The pixels of the picture, row by row. -/
def pixels (f : Frame) (t : PixelType) : List t.Pixel :=
  f.rows.zipIdx.flatMap fun (row, y) =>
    row.zipIdx.map fun (color, x) =>
      t.make (Int32.ofNat x) (Int32.ofNat y) (UInt8.ofNat color.val)

/-- The characters of the picture, in an array with a cell for each pixel. -/
def cells (f : Frame) (t : PixelType) : Array Char :=
  (f.pixels t).foldl
    (fun cells px =>
      cells.setIfInBounds (t.cell f.resolution.width px) (shadeOf (t.brightness px)))
    (Array.replicate f.resolution.area (shades.get ⟨0, by decide⟩))

/-- The picture as text: a line for each row, each ended by a newline. -/
def asciiBy (t : PixelType) (f : Frame) : String :=
  String.ofList <|
    (lines f.resolution.width f.resolution.height (f.cells t).toList).flatMap (· ++ ['\n'])

def ascii (f : Frame) : String := f.asciiBy .grey

end Frame

end XoChip
