import XoChip.Display.Frame

/-!
# Scrolling

Scrolling moves the pixels of a plane. What leaves the screen is lost and what comes in is dark;
sideways, every row is moved by itself.
-/

namespace XoChip.Plane

/-- How many pixels a scroll to the side moves. -/
def sideStep : Nat := 4

/-- Apply `move` to every row of a plane. -/
def mapRows (r : Resolution) (move : Array Bool → Array Bool) (p : Plane) : Plane :=
  (Array.range r.height).flatMap fun y => move (p.extract (y * r.width) ((y + 1) * r.width))

def scrollRight (r : Resolution) (p : Plane) : Plane :=
  p.mapRows r fun row => Array.replicate sideStep false ++ row.extract 0 (r.width - sideStep)

def scrollLeft (r : Resolution) (p : Plane) : Plane :=
  p.mapRows r fun row => row.extract sideStep r.width ++ Array.replicate sideStep false

def scrollDown (r : Resolution) (lines : Nat) (p : Plane) : Plane :=
  let shift := min lines r.height * r.width
  Array.replicate shift false ++ p.extract 0 (r.area - shift)

def scrollUp (r : Resolution) (lines : Nat) (p : Plane) : Plane :=
  let shift := min lines r.height * r.width
  p.extract shift r.area ++ Array.replicate shift false

end XoChip.Plane
