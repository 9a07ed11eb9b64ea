/-!
# The layout of memory

Four kibibytes, with the glyphs of the sixteen hexadecimal digits at the bottom and the program
above them:

```
  000 … 04F   glyphs, five bytes each
  200 … FFF   program and data
```
-/

namespace Chip8

/-- The number of bytes of memory. -/
def memorySize : Nat := 4096

/-- Where a program is loaded and starts. -/
def programStart : Nat := 0x200

/-- The longest program that fits. -/
def maxProgramSize : Nat := memorySize - programStart

/-- The number of return addresses that fit on the stack. -/
def stackDepth : Nat := 16

/-- The number of registers. -/
def registerCount : Nat := 16

/-- The number of keys. -/
def keyCount : Nat := 16

/-- The number of bytes of a glyph. -/
def glyphSize : Nat := 5

/-- The glyphs of the digits `0` to `F`, one row of pixels to a byte. -/
def glyphs : List UInt8 := [
  0xF0, 0x90, 0x90, 0x90, 0xF0,
  0x20, 0x60, 0x20, 0x20, 0x70,
  0xF0, 0x10, 0xF0, 0x80, 0xF0,
  0xF0, 0x10, 0xF0, 0x10, 0xF0,
  0x90, 0x90, 0xF0, 0x10, 0x10,
  0xF0, 0x80, 0xF0, 0x10, 0xF0,
  0xF0, 0x80, 0xF0, 0x90, 0xF0,
  0xF0, 0x10, 0x20, 0x40, 0x40,
  0xF0, 0x90, 0xF0, 0x90, 0xF0,
  0xF0, 0x90, 0xF0, 0x10, 0xF0,
  0xF0, 0x90, 0xF0, 0x90, 0x90,
  0xE0, 0x90, 0xE0, 0x90, 0xE0,
  0xF0, 0x80, 0x80, 0x80, 0xF0,
  0xE0, 0x90, 0x90, 0x90, 0xE0,
  0xF0, 0x80, 0xF0, 0x80, 0xF0,
  0xF0, 0x80, 0xF0, 0x80, 0x80]

theorem length_glyphs : glyphs.length = keyCount * glyphSize := rfl

end Chip8
