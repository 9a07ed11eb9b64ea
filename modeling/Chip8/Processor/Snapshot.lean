import Chip8.Processor.Basic

/-!
# Snapshots

A snapshot is what is kept of a processor when a cycle is recorded: everything but memory, which
would be too much for every cycle, and the stack only as far as it is in use.
-/

namespace Chip8

open Text

/-- A processor without its memory. -/
structure Snapshot where
  /-- The registers with their names. -/
  registers : List (String × UInt8)
  index : Int
  pc : Int
  sp : Int
  /-- The return addresses in use, the oldest first. -/
  calls : List Int
  delay : Int
  sound : Int
  cycles : Int
  deriving DecidableEq, Repr

namespace Processor

/-- What is kept of a processor in a record. -/
def snapshot (p : Processor) : Snapshot where
  registers := p.namedRegisters
  index := p.index
  pc := p.pc
  sp := p.sp
  calls := p.calls
  delay := p.delay
  sound := p.sound
  cycles := p.cycles

/-- A processor on one line. -/
def render (p : Processor) : String :=
  let registers := p.namedRegisters.map fun (name, b) => name ++ "=" ++ hex 2 b.toNat
  s!"[Cycle {p.cycles}] PC=" ++ hex 3 p.pc ++ " I=" ++ hex 3 p.index ++
    s!" SP={p.sp} DT={p.delay} ST={p.sound} " ++ " ".intercalate registers

end Processor

namespace Snapshot

/-- A register that the first snapshot has and the second has not. -/
def lostRegister? (before after : Snapshot) : Option String :=
  (before.registers.drop after.registers.length).head?.map (·.1)

/-- The registers that differ between two snapshots, with both values. -/
def changedRegisters (before after : Snapshot) : List (String × UInt8 × UInt8) :=
  (before.registers.zip after.registers).filterMap fun ((name, old), (_, new)) =>
    if old = new then none else some (name, old, new)

end Snapshot

end Chip8
