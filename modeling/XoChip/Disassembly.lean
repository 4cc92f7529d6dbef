import XoChip.Instruction.Mnemonic

/-!
# Disassembly

A program is read from the left. Two bytes that form a known instruction are code; otherwise one
byte is taken as data and reading goes on behind it. Neighbours of one kind are gathered into
segments, and the listing shows the segments in order.
-/

namespace XoChip

/-- One step of reading: an instruction word or a byte of data. -/
inductive Disassembly.Item
  | code (word : UInt16)
  | data (byte : UInt8)
  deriving DecidableEq, Repr

/-- A run of instruction words or of data bytes. -/
inductive Disassembly.Segment
  | code (words : List UInt16)
  | data (bytes : List UInt8)
  deriving DecidableEq, Repr

namespace Disassembly

def items : List UInt8 → List Item
  | [] => []
  | [b] => [.data b]
  | high :: low :: rest =>
    if Mnemonic.isKnown (Word.ofBytes high low) then
      .code (Word.ofBytes high low) :: items rest
    else
      .data high :: items (low :: rest)

/-- Put an item in front of segments, joining it to the first one if that is of its kind. -/
def prepend : Item → List Segment → List Segment
  | .code w, .code ws :: rest => .code (w :: ws) :: rest
  | .code w, segments => .code [w] :: segments
  | .data b, .data bs :: rest => .data (b :: bs) :: rest
  | .data b, segments => .data [b] :: segments

def segments (program : List UInt8) : List Segment := (items program).foldr prepend []

/-- The bytes of an item as they stand in memory. -/
def Item.bytes : Item → List UInt8
  | .code w => [Word.high w, Word.low w]
  | .data b => [b]

def Segment.bytes : Segment → List UInt8
  | .code ws => ws.flatMap fun w => [Word.high w, Word.low w]
  | .data bs => bs

/-- Data bytes in lines of eight. -/
def dataLines (bytes : List UInt8) : List (List UInt8) :=
  if bytes.isEmpty then [] else bytes.take 8 :: dataLines (bytes.drop 8)
termination_by bytes.length
decreasing_by
  cases bytes with
  | nil => contradiction
  | cons b bs => simp only [List.length_drop, List.length_cons]; omega

/-- A line of data: two spaces of indentation, then the bytes separated by single spaces. -/
def dataLine (bytes : List UInt8) : String :=
  "\n " ++ String.join (bytes.map fun b => " " ++ Numeral.byte b)

def Segment.listing : Segment → String
  | .code ws => "CODE:" ++ String.join (ws.map fun w => "\n  " ++ Mnemonic.listing w)
  | .data bs => "DATA:" ++ String.join ((dataLines bs).map dataLine)

/-- The listing of a program: its segments with a blank line between them. -/
def listing (program : List UInt8) : String :=
  String.intercalate "\n\n" ((segments program).map Segment.listing)

/-- Reading loses nothing: the items' bytes are the program. -/
theorem flatMap_bytes_items (program : List UInt8) :
    (items program).flatMap Item.bytes = program := by
  fun_induction items program with
  | case1 => rfl
  | case2 b => rfl
  | case3 high low rest _ ih => simp [Item.bytes, ih]
  | case4 high low rest _ ih => simp [Item.bytes, ih]

end Disassembly

end XoChip
