import Chip8.Word

/-!
# The thirty-four instructions

Each instruction is known by its opcode pattern: the digits that are fixed, and letters for the
operand fields. `8XY4` has first digit `8`, last digit `4`, and two register operands between.

Most families need the first digit only. Families `0`, `E` and `F` are told apart by the last two
digits, family `8` by the last one, and in families `5` and `9` the last digit has to be zero.
Family `0` does not look at its second digit.
-/

namespace Chip8

/-- What a word can tell the machine to do. -/
inductive Instruction where
  /-- Clear the screen. -/
  | clear
  /-- Return from a subroutine. -/
  | ret
  /-- Go to `nnn`. -/
  | jump
  /-- Call the subroutine at `nnn`. -/
  | call
  /-- Skip the next instruction if `Vx = nn`. -/
  | skipIfByte
  /-- Skip the next instruction if `Vx ≠ nn`. -/
  | skipUnlessByte
  /-- Skip the next instruction if `Vx = Vy`. -/
  | skipIfSame
  /-- `Vx := nn`. -/
  | loadByte
  /-- `Vx := Vx + nn`. -/
  | addByte
  /-- `Vx := Vy`. -/
  | copy
  /-- `Vx := Vx or Vy`. -/
  | bitOr
  /-- `Vx := Vx and Vy`. -/
  | bitAnd
  /-- `Vx := Vx xor Vy`. -/
  | bitXor
  /-- `Vx := Vx + Vy`, with the carry in `VF`. -/
  | add
  /-- `Vx := Vx - Vy`, with `Vx > Vy` in `VF`. -/
  | sub
  /-- `Vx := Vy / 2`, with the bit shifted out in `VF`. -/
  | shiftRight
  /-- `Vx := Vy - Vx`, with `Vy > Vx` in `VF`. -/
  | subFrom
  /-- `Vx := 2 Vy`, with the bit shifted out in `VF`. -/
  | shiftLeft
  /-- Skip the next instruction if `Vx ≠ Vy`. -/
  | skipUnlessSame
  /-- `I := nnn`. -/
  | loadIndex
  /-- Go to `V0 + nnn`. -/
  | jumpOffset
  /-- `Vx := a random byte and nn`. -/
  | random
  /-- Draw the `n` rows at `I` at column `Vx`, row `Vy`, with the collision in `VF`. -/
  | draw
  /-- Skip the next instruction if key `Vx` is down. -/
  | skipIfKey
  /-- Skip the next instruction if key `Vx` is up. -/
  | skipUnlessKey
  /-- `Vx :=` the delay timer. -/
  | readDelay
  /-- Wait until a key is released and put its number into `Vx`. -/
  | waitKey
  /-- Set the delay timer to `Vx`. -/
  | setDelay
  /-- Set the sound timer to `Vx`. -/
  | setSound
  /-- `I := I + Vx`. -/
  | addIndex
  /-- Point `I` at the glyph of `Vx`. -/
  | glyph
  /-- Store the three decimal digits of `Vx` at `I`. -/
  | decimal
  /-- Store `V0` to `Vx` at `I`. -/
  | store
  /-- Load `V0` to `Vx` from `I`. -/
  | load
  deriving DecidableEq, Repr

namespace Instruction

/-- The opcode pattern. -/
def pattern : Instruction → String
  | clear => "00E0"
  | ret => "00EE"
  | jump => "1NNN"
  | call => "2NNN"
  | skipIfByte => "3XNN"
  | skipUnlessByte => "4XNN"
  | skipIfSame => "5XY0"
  | loadByte => "6XNN"
  | addByte => "7XNN"
  | copy => "8XY0"
  | bitOr => "8XY1"
  | bitAnd => "8XY2"
  | bitXor => "8XY3"
  | add => "8XY4"
  | sub => "8XY5"
  | shiftRight => "8XY6"
  | subFrom => "8XY7"
  | shiftLeft => "8XYE"
  | skipUnlessSame => "9XY0"
  | loadIndex => "ANNN"
  | jumpOffset => "BNNN"
  | random => "CXNN"
  | draw => "DXYN"
  | skipIfKey => "EX9E"
  | skipUnlessKey => "EXA1"
  | readDelay => "FX07"
  | waitKey => "FX0A"
  | setDelay => "FX15"
  | setSound => "FX18"
  | addIndex => "FX1E"
  | glyph => "FX29"
  | decimal => "FX33"
  | store => "FX55"
  | load => "FX65"

/-- All instructions, in the order of their patterns. -/
def all : List Instruction :=
  [clear, ret, jump, call, skipIfByte, skipUnlessByte, skipIfSame, loadByte, addByte, copy, bitOr,
    bitAnd, bitXor, add, sub, shiftRight, subFrom, shiftLeft, skipUnlessSame, loadIndex,
    jumpOffset, random, draw, skipIfKey, skipUnlessKey, readDelay, waitKey, setDelay, setSound,
    addIndex, glyph, decimal, store, load]

@[simp] theorem mem_all (i : Instruction) : i ∈ all := by cases i <;> decide

theorem nodup_all : all.Nodup := by decide

/-- The instruction with a given pattern. -/
def ofPattern? (text : String) : Option Instruction :=
  all.find? (·.pattern == text)

/-- A pattern, or the name for words that are no instruction. -/
def label : Option Instruction → String
  | some i => i.pattern
  | none => "UNKNOWN"

end Instruction

/-- The instruction a word stands for, if any. -/
def Word.decode (w : Word) : Option Instruction :=
  match w.family with
  | 0x0 =>
    match w.nn with
    | 0xE0 => some .clear
    | 0xEE => some .ret
    | _ => none
  | 0x1 => some .jump
  | 0x2 => some .call
  | 0x3 => some .skipIfByte
  | 0x4 => some .skipUnlessByte
  | 0x5 => if w.n = 0 then some .skipIfSame else none
  | 0x6 => some .loadByte
  | 0x7 => some .addByte
  | 0x8 =>
    match w.n with
    | 0x0 => some .copy
    | 0x1 => some .bitOr
    | 0x2 => some .bitAnd
    | 0x3 => some .bitXor
    | 0x4 => some .add
    | 0x5 => some .sub
    | 0x6 => some .shiftRight
    | 0x7 => some .subFrom
    | 0xE => some .shiftLeft
    | _ => none
  | 0x9 => if w.n = 0 then some .skipUnlessSame else none
  | 0xA => some .loadIndex
  | 0xB => some .jumpOffset
  | 0xC => some .random
  | 0xD => some .draw
  | 0xE =>
    match w.nn with
    | 0x9E => some .skipIfKey
    | 0xA1 => some .skipUnlessKey
    | _ => none
  | 0xF =>
    match w.nn with
    | 0x07 => some .readDelay
    | 0x0A => some .waitKey
    | 0x15 => some .setDelay
    | 0x18 => some .setSound
    | 0x1E => some .addIndex
    | 0x29 => some .glyph
    | 0x33 => some .decimal
    | 0x55 => some .store
    | 0x65 => some .load
    | _ => none
  | _ => none

end Chip8
