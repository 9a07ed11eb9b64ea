import Chip8.Fault
import Chip8.Layout
import Chip8.Text.Uppercase

/-!
# The processor

Sixteen registers, an index register, a program counter, a stack of return addresses, four
kibibytes of memory and two timers.

All of it is plain data without conditions. What a processor should look like is said by
`Processor.isValid`, and that a running machine keeps to it is a theorem about the machine rather
than part of the type. So a processor that was put together by hand can be run as well, and the
operations say what happens then.

## Main definitions

* `Processor.powerOn`, the processor before anything was run
* `Processor.read`, `Processor.write`, checked accesses to memory
* `Processor.register`, `Processor.setRegister`, accesses by name or number
-/

namespace Chip8

/-- Everything the machine holds apart from its screen. -/
structure Processor where
  /-- The registers `V0` to `VF`. -/
  registers : Array UInt8
  /-- The index register. -/
  index : Int
  /-- The program counter. -/
  pc : Int
  /-- The slots for return addresses. -/
  stack : Array Int
  /-- The number of slots in use. -/
  sp : Int
  memory : Array UInt8
  /-- The delay timer. -/
  delay : Int
  /-- The sound timer. -/
  sound : Int
  /-- The number of completed cycles. -/
  cycles : Int
  deriving DecidableEq, Repr

namespace Processor

/-! ## Memory -/

/-- `memory` with `bytes` written over it from `start` on. Bytes beyond its end are appended. -/
def overwrite (memory : Array UInt8) (start : Nat) : List UInt8 → Array UInt8
  | [] => memory
  | b :: bs =>
    overwrite (if h : start < memory.size then memory.set start b else memory.push b) (start + 1) bs

/-- Memory before a program is loaded: the glyphs, and zeros. -/
def initialMemory : Array UInt8 :=
  overwrite (Array.replicate memorySize 0) 0 glyphs

/-- The processor before anything was run. -/
def powerOn : Processor where
  registers := Array.replicate registerCount 0
  index := 0
  pc := programStart
  stack := Array.replicate stackDepth 0
  sp := 0
  memory := initialMemory
  delay := 0
  sound := 0
  cycles := 0

/-- Refuses accesses to `length` bytes at `address` that are not all in memory. -/
def checkRange (address length : Int) : Except Fault Unit :=
  if address < 0 then .error (.outsideMemory address)
  else if memorySize < address + length then .error (.outsideMemory (max address memorySize))
  else .ok ()

/-- A position in a sequence of `size` elements. Below zero it counts from the end. -/
def position (size : Nat) (i : Int) : Nat :=
  if i < 0 then (i + size).toNat else i.toNat

/-- The `length` bytes at `address`. -/
def read (p : Processor) (address length : Int) : Except Fault (List UInt8) := do
  checkRange address length
  return (p.memory.extract address.toNat (position p.memory.size (address + length))).toList

/-- Numbers as bytes, if they all are. -/
def bytes? (data : List Int) : Option (List UInt8) :=
  data.mapM fun v => if 0 ≤ v ∧ v < 256 then some (UInt8.ofNat v.toNat) else none

/-- The processor with `data` written at `address`. -/
def write (p : Processor) (address : Int) (data : List Int) : Except Fault Processor := do
  checkRange address data.length
  match bytes? data with
  | some bytes => return { p with memory := overwrite p.memory address.toNat bytes }
  | none => .error .notBytes

/-! ## Registers -/

/-- The names of the registers. -/
def registerNames : List String :=
  ["V0", "V1", "V2", "V3", "V4", "V5", "V6", "V7", "V8", "V9", "VA", "VB", "VC", "VD", "VE", "VF"]

/-- How a register can be asked for. -/
inductive RegisterKey where
  | number (n : Int)
  /-- A name, in either case. -/
  | name (text : String)
  deriving DecidableEq, Repr

/-- A key as it was given. -/
def RegisterKey.text : RegisterKey → String
  | number n => toString n
  | name t => t

/-- The number of the register that a key stands for. -/
def RegisterKey.index? : RegisterKey → Option Nat
  | number n => if 0 ≤ n ∧ n < registerCount then some n.toNat else none
  | name t => registerNames.idxOf? (String.ofList (Text.upper t.toList))

/-- The number of the register that a key stands for. -/
def RegisterKey.index (k : RegisterKey) : Except Fault Nat :=
  match k.index? with
  | some r => .ok r
  | none => .error (.noSuchRegister k.text)

/-- The value of a register. -/
def register (p : Processor) (key : RegisterKey) : Except Fault UInt8 := do
  match p.registers[← key.index]? with
  | some b => return b
  | none => .error .registerMissing

/-- The processor with a register set. The value is taken modulo 256. -/
def setRegister (p : Processor) (key : RegisterKey) (value : Int) : Except Fault Processor := do
  let r ← key.index
  if h : r < p.registers.size then
    return { p with registers := p.registers.set r (UInt8.ofNat (value % 256).toNat) }
  else .error .registerMissing

/-- The registers with their names. -/
def namedRegisters (p : Processor) : List (String × UInt8) :=
  registerNames.zip p.registers.toList

/-- The return addresses in use, the oldest first. -/
def calls (p : Processor) : List Int :=
  (p.stack.extract 0 (position p.stack.size p.sp)).toList

/-! ## Validity -/

/-- Whether a number is a byte. -/
def isByte (n : Int) : Bool :=
  0 ≤ n && n ≤ 0xFF

/-- Whether a processor is as it should be: everything of the right size, the program counter
even and inside memory. -/
def isValid (p : Processor) : Bool :=
  p.registers.size == registerCount && p.memory.size == memorySize &&
    p.stack.size == stackDepth &&
    (p.pc % 2 == 0 && 0 ≤ p.pc && p.pc < memorySize) &&
    (0 ≤ p.index && p.index ≤ 0xFFFF) &&
    (0 ≤ p.sp && p.sp ≤ stackDepth) &&
    (isByte p.delay && isByte p.sound) &&
    0 ≤ p.cycles

theorem isValid_powerOn : powerOn.isValid = true := by decide +kernel

end Processor

end Chip8
