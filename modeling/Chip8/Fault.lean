import Chip8.Device
import Chip8.Instruction
import Chip8.Text.Hex

/-!
# Faults

Why a machine stops in the middle of a cycle. A fault names its cause with the numbers that
matter; the wording is in `Fault.message` alone.

The last group cannot arise in a machine that nobody has tampered with: those faults report
registers, stack slots or timers of the wrong number or size, which only direct changes from
outside can bring about.
-/

namespace Chip8

open Text

/-- A reason why a machine cannot go on. -/
inductive Fault where
  /-- The word at `pc` is no instruction. -/
  | unknownWord (pc word : Int)
  /-- A program does not fit between `programStart` and the end of memory. -/
  | programTooLarge (size limit : Nat)
  /-- An access touches a byte outside memory. -/
  | outsideMemory (address : Int)
  /-- A call at `pc` finds no free slot on the stack. -/
  | stackFull (pc : Int)
  /-- A return at `pc` finds no address on the stack. -/
  | stackEmpty (pc : Int)
  /-- A device failed, for a reason that is passed on as it is. -/
  | device (reason : DeviceFailure)
  /-- There is no register of this name or number. -/
  | noSuchRegister (name : String)
  /-- An instruction has no handler. -/
  | noHandler (instruction : Option Instruction)
  /-- A number other than a byte is to be written to memory. -/
  | notBytes
  /-- A register is missing. -/
  | registerMissing
  /-- The slot to return from is missing. -/
  | slotMissing
  /-- The slot to call from is missing. -/
  | noSlotToFill
  /-- A slot has a number beyond all that are looked up. -/
  | slotBeyondReach
  /-- A number other than a byte is to be put into a register. -/
  | notByte
  deriving DecidableEq, Repr

/-- A fault in words. -/
def Fault.message : Fault → String
  | unknownWord pc word => "Unknown opcode 0x" ++ hex 4 word ++ " at 0x" ++ hex 3 pc
  | programTooLarge size limit => s!"ROM is {size} bytes, maximum is {limit}"
  | outsideMemory a => "Memory access out of range: 0x" ++ hex 1 a
  | stackFull pc => "CALL with full stack at 0x" ++ hex 3 pc
  | stackEmpty pc => "RET with empty stack at 0x" ++ hex 3 pc
  | device reason => reason.message
  | noSuchRegister name => "Invalid register: " ++ name
  | noHandler i => "No handler for instruction: " ++ Instruction.label i
  | notBytes => "bytes must be in range(0, 256)"
  | registerMissing => "bytearray index out of range"
  | slotMissing => "list index out of range"
  | noSlotToFill => "list assignment index out of range"
  | slotBeyondReach => "cannot fit 'int' into an index-sized integer"
  | notByte => "byte must be in range(0, 256)"

end Chip8
