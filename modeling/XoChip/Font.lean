/-!
# Built-in glyphs

Memory below the program holds two alphabets of the sixteen hexadecimal digits: small glyphs of
five bytes and large glyphs of ten. The functions below give their bytes and their places.
-/

namespace XoChip.Font

def smallStart : UInt16 := 0x000

def largeStart : UInt16 := 0x100

/-- The sixteen small glyphs, eight pixels wide and five lines high. -/
def small : List UInt8 :=
  [0xF0, 0x90, 0x90, 0x90, 0xF0,  0x20, 0x60, 0x20, 0x20, 0x70,
   0xF0, 0x10, 0xF0, 0x80, 0xF0,  0xF0, 0x10, 0x70, 0x10, 0xF0,
   0xA0, 0xA0, 0xF0, 0x20, 0x20,  0xF0, 0x80, 0xF0, 0x10, 0xF0,
   0xF0, 0x80, 0xF0, 0x90, 0xF0,  0xF0, 0x10, 0x10, 0x10, 0x10,
   0x60, 0x90, 0x60, 0x90, 0x60,  0xF0, 0x90, 0xF0, 0x10, 0x10,
   0x60, 0x90, 0xF0, 0x90, 0x90,  0xE0, 0x90, 0xE0, 0x90, 0xE0,
   0xF0, 0x80, 0x80, 0x80, 0xF0,  0xE0, 0x90, 0x90, 0x90, 0xE0,
   0xF0, 0x80, 0xF0, 0x80, 0xF0,  0xF0, 0x80, 0xE0, 0x80, 0x80]

/-- The sixteen large glyphs, eight pixels wide and ten lines high. -/
def large : List UInt8 :=
  [0x3C, 0x66, 0xC3, 0xC3, 0xC3, 0xC3, 0xC3, 0xC3, 0x66, 0x3C,
   0x0C, 0x1C, 0x2C, 0x0C, 0x0C, 0x0C, 0x0C, 0x0C, 0x0C, 0x1E,
   0x3E, 0x7F, 0xC3, 0x06, 0x0C, 0x18, 0x30, 0x60, 0xFF, 0xFF,
   0x3C, 0x66, 0xC3, 0x03, 0x0E, 0x0E, 0x03, 0xC3, 0x66, 0x3C,
   0x06, 0x0E, 0x1E, 0x36, 0x66, 0xC6, 0xFF, 0xFF, 0x06, 0x06,
   0xFF, 0xFF, 0xC0, 0xC0, 0xFC, 0xFE, 0x07, 0xC7, 0x7C, 0x38,
   0x3F, 0x7E, 0xC0, 0xC0, 0xFC, 0xFE, 0xC7, 0xC3, 0x7E, 0x3C,
   0xFF, 0xFF, 0x03, 0x06, 0x0C, 0x18, 0x30, 0x60, 0xC0, 0xC0,
   0x3C, 0x66, 0xC3, 0xC3, 0x7E, 0x7E, 0xC3, 0xC3, 0x66, 0x3C,
   0x3C, 0x66, 0xC3, 0xC3, 0x7F, 0x3F, 0x03, 0x03, 0x7E, 0xFC,
   0x7E, 0xFF, 0xC3, 0xC3, 0xC3, 0xFF, 0xFF, 0xC3, 0xC3, 0xC3,
   0xFC, 0xFC, 0xC3, 0xC3, 0xFC, 0xFC, 0xC3, 0xC3, 0xFC, 0xFC,
   0x3C, 0xFF, 0xC3, 0xC0, 0xC0, 0xC0, 0xC0, 0xC3, 0xFF, 0x3C,
   0xFC, 0xFE, 0xC3, 0xC3, 0xC3, 0xC3, 0xC3, 0xC3, 0xFE, 0xFC,
   0xFF, 0xFF, 0xC0, 0xC0, 0xFF, 0xFF, 0xC0, 0xC0, 0xFF, 0xFF,
   0xFF, 0xFF, 0xC0, 0xC0, 0xFF, 0xFF, 0xC0, 0xC0, 0xC0, 0xC0]

theorem length_small : small.length = 16 * 5 := rfl

set_option maxRecDepth 2000 in
theorem length_large : large.length = 16 * 10 := rfl

/-- The digit that a byte's low nibble shows. -/
def digit (b : UInt8) : Nat := b.toNat % 16

/-- The address of the small glyph for the low nibble of a byte. -/
def smallAddress (b : UInt8) : UInt16 := smallStart + UInt16.ofNat (digit b * 5)

/-- The address of the large glyph for the low nibble of a byte. -/
def largeAddress (b : UInt8) : UInt16 := largeStart + UInt16.ofNat (digit b * 10)

/-- The bytes of the small glyph for the low nibble of a byte. -/
def smallGlyph (b : UInt8) : List UInt8 := (small.drop (digit b * 5)).take 5

/-- The bytes of the large glyph for the low nibble of a byte. -/
def largeGlyph (b : UInt8) : List UInt8 := (large.drop (digit b * 10)).take 10

end XoChip.Font
