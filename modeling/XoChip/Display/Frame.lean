/-!
# Frames

A frame is a picture of one of two resolutions, in two planes of one bit per pixel. The colour
of a pixel is the number that its bits in the first and the second plane form. Pixels are
counted row by row, so that the pixel in column `x` of row `y` has the index `y * width + x`.
-/

namespace XoChip

/-- The two sizes of the screen. -/
inductive Resolution
  | lores
  | hires
  deriving DecidableEq, Repr, Inhabited

namespace Resolution

def width : Resolution → Nat
  | lores => 64
  | hires => 128

def height : Resolution → Nat
  | lores => 32
  | hires => 64

def area (r : Resolution) : Nat := r.width * r.height

def ofSize? (width height : UInt64) : Option Resolution :=
  if (width, height) = (64, 32) then some .lores
  else if (width, height) = (128, 64) then some .hires
  else none

end Resolution

/-- One bit per pixel. -/
abbrev Plane := Array Bool

/-- The colour of a pixel: 1 for the first plane, plus 2 for the second. -/
abbrev Color := Fin 4

/-- The colour of a pixel with the given bits in the two planes. -/
def Color.ofBits (first second : Bool) : Color :=
  match first, second with
  | false, false => 0
  | true, false => 1
  | false, true => 2
  | true, true => 3

namespace Plane

def dark (r : Resolution) : Plane := Array.replicate r.area false

/-- The plane whose pixels are given as bytes 0 and 1. -/
def ofBytes? (bytes : Array UInt8) : Option Plane :=
  if bytes.all (· ≤ 1) then some (bytes.map (· == 1)) else none

/-- The pixels as bytes 0 and 1. -/
def bytes (p : Plane) : Array UInt8 := p.map fun lit => if lit then 1 else 0

/-- Write the pixels of `source` over those of `target`. -/
def overwrite (target source : Plane) : Plane :=
  source.size.fold (fun k h target => target.setIfInBounds k source[k]) target

end Plane

/-- A picture of two planes. -/
structure Frame where
  resolution : Resolution := .lores
  plane1 : Plane := Plane.dark resolution
  plane2 : Plane := Plane.dark resolution
  deriving DecidableEq, Repr, Inhabited

namespace Frame

def blank (r : Resolution) : Frame := { resolution := r }

/-- Both planes have one bit for every pixel of the resolution. -/
structure WellFormed (f : Frame) : Prop where
  size_plane1 : f.plane1.size = f.resolution.area
  size_plane2 : f.plane2.size = f.resolution.area

theorem wellFormed_blank (r : Resolution) : (blank r).WellFormed := by
  constructor <;> simp [blank, Plane.dark]

/-- The picture with the given dimensions and planes. The dimensions have to be those of a
    resolution, the planes have to fit them and every pixel has to be 0 or 1. -/
def ofPlanes? (width height : UInt64) (plane1 plane2 : Array UInt8) : Option Frame := do
  let resolution ← Resolution.ofSize? width height
  if plane1.size = resolution.area ∧ plane2.size = resolution.area then
    return { resolution, plane1 := ← Plane.ofBytes? plane1, plane2 := ← Plane.ofBytes? plane2 }
  else none

def isBlank (f : Frame) : Bool := f.plane1.all (!·) && f.plane2.all (!·)

/-- The colour of the pixel with the given index, if there is such a pixel. -/
def color? (f : Frame) (index : Nat) : Option Color :=
  match f.plane1[index]?, f.plane2[index]? with
  | some first, some second => some (.ofBits first second)
  | _, _ => none

/-- The colour of the pixel in column `x` of row `y`. Only the index counts: a column beyond the
    width lies in a later row, and an index beyond the last row has no pixel. -/
def pixel? (f : Frame) (x y : Nat) : Option Color :=
  f.color? (y * f.resolution.width + x)

/-- Cut a list into lines of `width`; what is left at the end is a shorter line. -/
def lines {α : Type} (width : Nat) : Nat → List α → List (List α)
  | 0, _ => []
  | count + 1, cells => cells.take width :: lines width count (cells.drop width)

/-- The colours of the picture, row by row. -/
def rows (f : Frame) : List (List Color) :=
  let cut (p : Plane) := lines f.resolution.width f.resolution.height p.toList
  List.zipWith (List.zipWith Color.ofBits) (cut f.plane1) (cut f.plane2)

def shade (c : Color) : Char :=
  match c with
  | 0 => '.'
  | 1 => '#'
  | 2 => '+'
  | 3 => '@'

/-- The picture's dimensions, and its rows as text. -/
def summary (f : Frame) : String :=
  s!"Frame {f.resolution.width}x{f.resolution.height}\n" ++
    String.join (f.rows.map fun row => String.ofList (row.map shade ++ ['\n']))

/-- This picture, written into the memory of `recycled` if that has the same resolution. -/
def copyInto (f : Frame) (recycled : Option Frame) : Frame :=
  match recycled with
  | none => f
  | some old =>
    if old.resolution = f.resolution then
      { old with
        plane1 := old.plane1.overwrite f.plane1
        plane2 := old.plane2.overwrite f.plane2 }
    else f

end Frame

end XoChip
