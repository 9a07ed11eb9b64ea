import Chip8.Assembly.Encoding
import Chip8.Mnemonic
import Chip8.Proofs.Text.Numeral

/-!
# The syntax of instructions

One table says for each instruction which operation it is written with and what stands in the places
of its operands. The assembly text of a word and the encoding of a statement are two readings of it:
a word fills the places with its digits, and a statement is matched against them.

A place in which a register is named is a slot `x` or `y`, after the digit that the register goes
to. An operand in the place of an address may be a label.

## Main results

* `Word.mnemonic_eq` — the assembly text of a word, from the table
-/

namespace Chip8

open Assembly Text

/-- What stands in the place of an operand. -/
inductive Slot where
  /-- The register of the second digit. -/
  | x
  /-- The register of the third digit. -/
  | y
  | byte
  | nibble
  | address
  /-- A name that is written as it is. -/
  | name (text : String)

/-- A word's operand in a slot, in assembly text. -/
def Slot.text (w : Word) : Slot → String
  | x => Word.registerName w.x
  | y => Word.registerName w.y
  | byte => "0x" ++ hex 2 w.nn
  | nibble => toString w.n
  | address => "0x" ++ hex 3 w.nnn
  | name text => text

namespace Instruction

/-- The operation that an instruction is written with. -/
def operation : Instruction → Operation
  | clear => .cls
  | ret => .ret
  | jump | jumpOffset => .jp
  | call => .call
  | skipIfByte | skipIfSame => .se
  | skipUnlessByte | skipUnlessSame => .sne
  | loadByte | copy | loadIndex | readDelay | waitKey | setDelay | setSound | glyph | decimal
  | store | load => .ld
  | addByte | add | addIndex => .add
  | bitOr => .or
  | bitAnd => .and
  | bitXor => .xor
  | sub => .sub
  | subFrom => .subn
  | shiftRight => .shr
  | shiftLeft => .shl
  | random => .rnd
  | draw => .drw
  | skipIfKey => .skp
  | skipUnlessKey => .sknp

/-- The places of its operands. -/
def slots : Instruction → List Slot
  | clear | ret => []
  | jump | call => [.address]
  | jumpOffset => [.name "V0", .address]
  | skipIfByte | skipUnlessByte | loadByte | addByte | random => [.x, .byte]
  | skipIfSame | skipUnlessSame | copy | bitOr | bitAnd | bitXor | add | sub | subFrom
  | shiftRight | shiftLeft => [.x, .y]
  | loadIndex => [.name "I", .address]
  | addIndex => [.name "I", .x]
  | readDelay => [.x, .name "DT"]
  | waitKey => [.x, .name "K"]
  | load => [.x, .name "[I]"]
  | setDelay => [.name "DT", .x]
  | setSound => [.name "ST", .x]
  | glyph => [.name "F", .x]
  | decimal => [.name "B", .x]
  | store => [.name "[I]", .x]
  | draw => [.x, .y, .nibble]
  | skipIfKey | skipUnlessKey => [.x]

end Instruction

/-- An operation with its operands: a space after the operation, and a comma and a space between
operands. -/
def sentence (operation : String) : List String → String
  | [] => operation
  | operands => operation ++ " " ++ ", ".intercalate operands

/-- The assembly text of a word that is an instruction. -/
theorem Word.mnemonic_eq {w : Word} {i : Instruction} (h : w.decode = some i) :
    w.mnemonic = sentence i.operation.name (i.slots.map (·.text w)) := by
  rw [mnemonic, h]
  change w.instructionText i = _
  rw [← String.toList_inj]
  cases i
  all_goals
    simp [instructionText, Instruction.operation, Instruction.slots, Operation.name, Slot.text,
      sentence]

end Chip8
