/-!
# The call stack

Sixty-four slots for return addresses, of which the first `depth` are in use. Slots keep their
contents when they fall out of use.
-/

namespace XoChip

/-- The slots and how many of them are in use. -/
structure CallStack where
  slots : Vector UInt16 64 := Vector.replicate 64 0
  depth : Nat := 0
  deriving DecidableEq, Repr, Inhabited

namespace CallStack

def capacity : Nat := 64

/-- The addresses in use, the oldest first. -/
def toList (s : CallStack) : List UInt16 := s.slots.toList.take s.depth

def isEmpty (s : CallStack) : Bool := s.depth == 0

def isFull (s : CallStack) : Bool := s.depth == capacity

/-- Put an address on top. There has to be a free slot. -/
def push (s : CallStack) (a : UInt16) : CallStack :=
  { slots := s.slots.setIfInBounds s.depth a, depth := s.depth + 1 }

/-- The address on top; zero if none is in use. -/
def top (s : CallStack) : UInt16 := s.slots.toArray.getD (s.depth - 1) 0

def pop (s : CallStack) : CallStack := { s with depth := s.depth - 1 }

end CallStack

end XoChip
