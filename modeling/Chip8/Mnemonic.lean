import Chip8.Instruction
import Chip8.Text.Hex

/-!
# Words as assembly text

`Word.mnemonic` shows a word the way it would be written in an assembly source. A word that is no
instruction is shown as the data it is. `Word.fields` shows the operand fields instead.

`Listing` puts addresses and words beside the mnemonics of a whole program. A last odd byte is
shown as a byte of data.
-/

namespace Chip8

open Text

namespace Word

/-- A register's name. -/
def registerName (r : Nat) : String := "V" ++ hex 1 r

/-- The assembly text of an instruction with the operands of `w`. -/
def instructionText (w : Word) : Instruction → String :=
  let vx := registerName w.x
  let vy := registerName w.y
  let byte := "0x" ++ hex 2 w.nn
  let address := "0x" ++ hex 3 w.nnn
  fun
  | .clear => "CLS"
  | .ret => "RET"
  | .jump => "JP " ++ address
  | .call => "CALL " ++ address
  | .skipIfByte => "SE " ++ vx ++ ", " ++ byte
  | .skipUnlessByte => "SNE " ++ vx ++ ", " ++ byte
  | .skipIfSame => "SE " ++ vx ++ ", " ++ vy
  | .loadByte => "LD " ++ vx ++ ", " ++ byte
  | .addByte => "ADD " ++ vx ++ ", " ++ byte
  | .copy => "LD " ++ vx ++ ", " ++ vy
  | .bitOr => "OR " ++ vx ++ ", " ++ vy
  | .bitAnd => "AND " ++ vx ++ ", " ++ vy
  | .bitXor => "XOR " ++ vx ++ ", " ++ vy
  | .add => "ADD " ++ vx ++ ", " ++ vy
  | .sub => "SUB " ++ vx ++ ", " ++ vy
  | .shiftRight => "SHR " ++ vx ++ ", " ++ vy
  | .subFrom => "SUBN " ++ vx ++ ", " ++ vy
  | .shiftLeft => "SHL " ++ vx ++ ", " ++ vy
  | .skipUnlessSame => "SNE " ++ vx ++ ", " ++ vy
  | .loadIndex => "LD I, " ++ address
  | .jumpOffset => "JP V0, " ++ address
  | .random => "RND " ++ vx ++ ", " ++ byte
  | .draw => "DRW " ++ vx ++ ", " ++ vy ++ ", " ++ toString w.n
  | .skipIfKey => "SKP " ++ vx
  | .skipUnlessKey => "SKNP " ++ vx
  | .readDelay => "LD " ++ vx ++ ", DT"
  | .waitKey => "LD " ++ vx ++ ", K"
  | .setDelay => "LD DT, " ++ vx
  | .setSound => "LD ST, " ++ vx
  | .addIndex => "ADD I, " ++ vx
  | .glyph => "LD F, " ++ vx
  | .decimal => "LD B, " ++ vx
  | .store => "LD [I], " ++ vx
  | .load => "LD " ++ vx ++ ", [I]"

/-- A word in assembly text. -/
def mnemonic (w : Word) : String :=
  match w.decode with
  | some i => w.instructionText i
  | none => "DW 0x" ++ hex 4 w.value

/-- A word and its operand fields, for inspection. -/
def fields (w : Word) : String :=
  "opcode: 0x" ++ smallHex 4 w.value ++ ", x: 0x" ++ smallHex 1 w.x ++ ", y: 0x" ++
    smallHex 1 w.y ++ ", n: 0x" ++ smallHex 1 w.n ++ ", nn: 0x" ++ smallHex 2 w.nn ++
    ", nnn: 0x" ++ smallHex 3 w.nnn

end Word

/-- One line of a program listing. -/
structure Listing.Line where
  /-- Where the line's first byte is loaded. -/
  address : Nat
  /-- The line's one or two bytes in hexadecimal. -/
  raw : String
  /-- What they say in assembly. -/
  text : String
  deriving DecidableEq, Repr

/-- The listing of a program whose first byte is loaded at `address`. -/
def Listing.lines (address : Nat) : List UInt8 → List Listing.Line
  | [] => []
  | [b] => [⟨address, hex 2 b.toNat ++ "  ", "DB 0x" ++ hex 2 b.toNat⟩]
  | b :: c :: rest =>
    let w := Word.ofBytes [b, c]
    ⟨address, hex 4 w.value, w.mnemonic⟩ :: Listing.lines (address + 2) rest

/-- Address, bytes and assembly text, as printed. -/
def Listing.Line.render (l : Listing.Line) : String :=
  "0x" ++ hex 3 l.address ++ ": " ++ l.raw ++ "  " ++ l.text

end Chip8
