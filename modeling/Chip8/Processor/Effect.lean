import Chip8.Processor.Basic
import Chip8.Word

/-!
# What instructions do to the processor

An effect changes the processor and may stop with a fault, which leaves behind what was done up to
then. The program counter is already past the instruction when its effect takes place: a jump
overwrites it, a skip adds another two.

Where an instruction writes a result and a flag, the flag is written last. So with `VF` as the
target the flag stays, and all operands are read before anything is written.

Instructions that involve the screen, the keys or random bytes are put together from these in
`Chip8.Machine.Handlers`.
-/

namespace Chip8

namespace Processor

/-- A change of the processor that may stop with a fault. -/
abbrev Effect := EStateM Fault Processor

namespace Effect

/-- An effect that a fallible function describes. Nothing changes when it fails. -/
def ofExcept (f : Processor → Except Fault Processor) : Effect Unit := fun p =>
  match f p with
  | .ok q => .ok () q
  | .error e => .error e p

/-- A value that a fallible function finds. -/
def ask {α : Type} (f : Processor → Except Fault α) : Effect α := fun p =>
  match f p with
  | .ok a => .ok a p
  | .error e => .error e p

/-- The value of the register with a given number. -/
def get (r : Nat) : Effect UInt8 := fun p =>
  match p.registers[r]? with
  | some b => .ok b p
  | none => .error .registerMissing p

/-- Puts a byte into the register with a given number. -/
def put (r : Nat) (b : UInt8) : Effect Unit := fun p =>
  if h : r < p.registers.size then .ok () { p with registers := p.registers.set r b }
  else .error .registerMissing p

/-- One or zero, as flags are kept. -/
def flag (b : Bool) : UInt8 :=
  if b then 1 else 0

/-! ## Flow -/

/-- Moves the program counter by `n`, modulo the size of an address. -/
def movePc (n : Int) : Effect Unit :=
  modify fun p => { p with pc := (p.pc + n) % 0x10000 }

/-- Skips the next instruction if the condition holds. -/
def skipIf (condition : Bool) : Effect Unit :=
  if condition then movePc 2 else pure ()

/-- Goes to an address. -/
def jump (address : Int) : Effect Unit :=
  modify fun p => { p with pc := address }

/-- Goes to the address that lies `V0` after another. -/
def jumpOffset (address : Nat) : Effect Unit := do
  let v0 ← get 0
  jump ((v0.toNat + address : Int) % 0x10000)

/-- Whether a slot has a number of 64 bits with sign. Slots with other numbers are not looked up. -/
def isWithinReach (slot : Int) : Bool :=
  -0x8000000000000000 ≤ slot && slot ≤ 0x7FFFFFFFFFFFFFFF

/-- The place of a slot in a stack of a given size. Slots below zero are counted from the end. -/
def slotPlace? (size : Nat) (slot : Int) : Option Nat :=
  let place := if slot < 0 then slot + size else slot
  if 0 ≤ place && place < size then some place.toNat else none

/-- Calls the subroutine at an address: the address to return to goes into the next slot. -/
def call (address : Nat) : Effect Unit := fun p =>
  if stackDepth ≤ p.sp then .error (.stackFull (p.pc - 2)) p
  else if !isWithinReach p.sp then .error .slotBeyondReach p
  else
    match slotPlace? p.stack.size p.sp with
    | some place =>
      .ok () { p with
        stack := p.stack.setIfInBounds place p.pc, sp := p.sp + 1, pc := address }
    | none => .error .noSlotToFill p

/-- Returns to the address in the last slot in use. -/
def ret : Effect Unit := fun p =>
  if p.sp = 0 then .error (.stackEmpty (p.pc - 2)) p
  else
    let q := { p with sp := p.sp - 1 }
    if !isWithinReach q.sp then .error .slotBeyondReach q
    else
      match (slotPlace? q.stack.size q.sp).bind (q.stack[·]?) with
      | some a => .ok () { q with pc := a }
      | none => .error .slotMissing q

/-! ## Arithmetic -/

/-- `Vx := f Vx Vy`. -/
def combine (f : UInt8 → UInt8 → UInt8) (x y : Nat) : Effect Unit := do
  let a ← get x
  let b ← get y
  put x (f a b)

/-- `Vx := f Vx Vy` and then `VF := g Vx Vy`, both for the old values. -/
def combineFlag (f : UInt8 → UInt8 → UInt8) (g : UInt8 → UInt8 → Bool) (x y : Nat) :
    Effect Unit := do
  let a ← get x
  let b ← get y
  put x (f a b)
  put 0xF (flag (g a b))

/-- `Vx := Vy`. -/
def copy (x y : Nat) : Effect Unit := do
  put x (← get y)

/-- `Vx := Vx + Vy`, with the carry as the flag. -/
def add : Nat → Nat → Effect Unit :=
  combineFlag (· + ·) fun a b => 0xFF < a.toNat + b.toNat

/-- `Vx := Vx - Vy`, with `Vx > Vy` as the flag. -/
def sub : Nat → Nat → Effect Unit :=
  combineFlag (· - ·) fun a b => b < a

/-- `Vx := Vy - Vx`, with `Vy > Vx` as the flag. -/
def subFrom : Nat → Nat → Effect Unit :=
  combineFlag (fun a b => b - a) fun a b => a < b

/-- `Vx := f Vy`, with a bit of `Vy` as the flag. -/
def shift (f : UInt8 → UInt8) (bit : UInt8 → Bool) (x y : Nat) : Effect Unit := do
  let b ← get y
  put x (f b)
  put 0xF (flag (bit b))

/-- `Vx := Vy / 2`, with the lowest bit as the flag. -/
def shiftRight : Nat → Nat → Effect Unit :=
  shift (· >>> 1) fun b => b.toNat % 2 = 1

/-- `Vx := 2 Vy`, with the highest bit as the flag. -/
def shiftLeft : Nat → Nat → Effect Unit :=
  shift (· <<< 1) fun b => 0x80 ≤ b.toNat

/-! ## Memory -/

/-- `I := n`. -/
def setIndex (n : Int) : Effect Unit :=
  modify fun p => { p with index := n }

/-- `I := I + Vx`, modulo the size of an address. -/
def addIndex (x : Nat) : Effect Unit := do
  let b ← get x
  modify fun p => { p with index := (p.index + b.toNat) % 0x10000 }

/-- Points `I` at the glyph of `Vx`. -/
def glyph (x : Nat) : Effect Unit := do
  let b ← get x
  setIndex (b.toNat * glyphSize)

/-- The hundreds, tens and ones of a byte. -/
def decimalDigits (b : UInt8) : List Int :=
  [b.toNat / 100, b.toNat / 10 % 10, b.toNat % 10]

/-- Stores the decimal digits of `Vx` at `I`. -/
def decimal (x : Nat) : Effect Unit := do
  let b ← get x
  ofExcept fun p => p.write p.index (decimalDigits b)

/-- Stores `V0` to `Vx` at `I`. -/
def store (x : Nat) : Effect Unit :=
  ofExcept fun p => p.write p.index ((p.registers.toList.take (x + 1)).map (·.toNat))

/-- Loads `V0` to `Vx` from `I`. -/
def load (x : Nat) : Effect Unit := do
  let bytes ← ask fun p => p.read p.index (x + 1)
  modify fun p =>
    { p with registers := bytes.toArray ++ p.registers.extract (x + 1) p.registers.size }

/-- The `n` bytes at `I`. -/
def fromIndex (n : Nat) : Effect (List UInt8) :=
  ask fun p => p.read p.index n

/-! ## Timers -/

/-- `Vx :=` the delay timer. -/
def readDelay (x : Nat) : Effect Unit := do
  let p ← EStateM.get
  if isByte p.delay then put x (UInt8.ofNat p.delay.toNat) else throw .notByte

/-- The delay timer `:= Vx`. -/
def setDelay (x : Nat) : Effect Unit := do
  let b ← get x
  modify fun p => { p with delay := b.toNat }

/-- The sound timer `:= Vx`. -/
def setSound (x : Nat) : Effect Unit := do
  let b ← get x
  modify fun p => { p with sound := b.toNat }

end Effect

end Processor

end Chip8
