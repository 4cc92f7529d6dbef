import XoChip.Display.Scroll
import XoChip.Display.Sprite
import XoChip.Display.Text

/-!
# The display

The screen of a machine: its mode, the planes that drawing acts on, and the picture. Operations
on the picture act on the selected planes and leave the others alone.
-/

namespace XoChip

/-- A screen. Bit 0 of `selection` selects the first plane and bit 1 the second. -/
structure Display where
  hires : Bool := false
  selection : UInt8 := 1
  frame : Frame := {}
  deriving DecidableEq, Repr, Inhabited

namespace Display

def resolutionOf (hires : Bool) : Resolution := if hires then .hires else .lores

/-- The mode and the picture agree, the planes have the right sizes, and the selection names
    planes that exist. -/
structure WellFormed (d : Display) : Prop where
  frame : d.frame.WellFormed
  resolution : d.frame.resolution = resolutionOf d.hires
  selection : d.selection ≤ 3

def selectsFirst (d : Display) : Bool := d.selection.toNat % 2 == 1

def selectsSecond (d : Display) : Bool := d.selection.toNat / 2 % 2 == 1

/-- Switch to a mode. The picture is lost, even if the mode stays. -/
def setHires (d : Display) (hires : Bool) : Display :=
  { d with hires, frame := .blank (resolutionOf hires) }

/-- Select planes by the two lowest bits of a byte. -/
def select (d : Display) (selection : UInt8) : Display := { d with selection := selection &&& 3 }

/-- Back to a dark small screen that draws on the first plane. -/
def reset : Display := {}

def mapSelected (d : Display) (op : Resolution → Plane → Plane) : Display :=
  let r := d.frame.resolution
  let d := if d.selectsFirst then { d with frame.plane1 := op r d.frame.plane1 } else d
  if d.selectsSecond then { d with frame.plane2 := op r d.frame.plane2 } else d

def clear (d : Display) : Display := d.mapSelected fun _ p => p.map fun _ => false

def scrollRight (d : Display) : Display := d.mapSelected Plane.scrollRight

def scrollLeft (d : Display) : Display := d.mapSelected Plane.scrollLeft

def scrollDown (d : Display) (lines : UInt8) : Display :=
  d.mapSelected fun r => Plane.scrollDown r lines.toNat

def scrollUp (d : Display) (lines : UInt8) : Display :=
  d.mapSelected fun r => Plane.scrollUp r lines.toNat

/-- Draw a sprite on each selected plane and tell whether a lit pixel went dark. `bytes` holds
    the sprite for the first selected plane, followed by that for the second. -/
def draw (d : Display) (x y : Nat) (bytes : List UInt8) (lines : UInt8) : Bool × Display :=
  let r := d.frame.resolution
  let size := Sprite.planeBytes lines
  match d.selectsFirst, d.selectsSecond with
  | false, false => (false, d)
  | true, false =>
    let (plane1, hit) := Sprite.draw r x y lines (bytes.take size) d.frame.plane1
    (hit, { d with frame.plane1 := plane1 })
  | false, true =>
    let (plane2, hit) := Sprite.draw r x y lines (bytes.take size) d.frame.plane2
    (hit, { d with frame.plane2 := plane2 })
  | true, true =>
    let (plane1, hit1) := Sprite.draw r x y lines (bytes.take size) d.frame.plane1
    let (plane2, hit2) :=
      Sprite.draw r x y lines ((bytes.drop size).take size) d.frame.plane2
    (hit1 || hit2, { d with frame := { d.frame with plane1, plane2 } })

/-- The current picture, written into the memory of `recycled` if that has the same
    resolution. -/
def nextFrame (d : Display) (recycled : Option Frame) : Frame := d.frame.copyInto recycled

end Display

end XoChip
