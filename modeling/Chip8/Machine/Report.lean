import Chip8.Machine.Basic

/-!
# What is told about a machine

The numbers that sum up a run, and the trace in words.
-/

namespace Chip8

/-- What a machine is like after a run. -/
structure Report where
  cycles : Int
  /-- The registers with their names. -/
  registers : List (String × UInt8)
  index : Int
  pc : Int
  sp : Int
  delay : Int
  sound : Int
  /-- The number of lit pixels. -/
  litPixels : Nat
  /-- The number of cycles on record. -/
  recorded : Nat
  /-- Why recorded cycles failed. -/
  failures : List String
  deriving DecidableEq, Repr

namespace Machine

variable {κ β δ ρ : Type}

/-- What a machine is like. -/
def report (m : Machine κ β δ ρ) : Report where
  cycles := m.cpu.cycles
  registers := m.cpu.namedRegisters
  index := m.cpu.index
  pc := m.cpu.pc
  sp := m.cpu.sp
  delay := m.cpu.delay
  sound := m.cpu.sound
  litPixels := m.screen.lit.length
  recorded := m.trace.entries.size
  failures := m.trace.failures

/-- The trace in words, each line ended. -/
def traceText (m : Machine κ β δ ρ) : String :=
  String.join ((m.trace.lines m.cpu).map (· ++ "\n"))

/-- A register that a recorded cycle lost. -/
def lostRegister? (m : Machine κ β δ ρ) : Option String :=
  m.trace.entries.toList.findSome? fun e => e.before.lostRegister? e.after

end Machine

end Chip8
