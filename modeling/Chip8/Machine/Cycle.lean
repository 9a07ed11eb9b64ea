import Chip8.Machine.Handlers

/-!
# Cycles

One cycle fetches the word at the program counter, moves the program counter past it, carries the
word out and then lets both timers run down by one. The tone is sounded when the sound timer
reaches zero. A completed cycle is counted.

A cycle that fails is not counted. Up to the timers a failure is recorded in the trace; a tone
that fails leaves no record.
-/

namespace Chip8

namespace Machine

variable {κ β δ ρ : Type}

/-- The word at the program counter. -/
def fetch (p : Processor) : Except Fault Word := do
  return Word.ofBytes (← p.read p.pc 2)

/-- One tick of a timer. Only a timer that runs gets lower. -/
def countDown (timer : Int) : Int :=
  if 0 < timer then timer - 1 else timer

/-- Lets the timers run down, and sounds the tone when the sound timer reaches zero. -/
def tick [Sounder β] : Action κ β δ ρ Unit := do
  let before ← get
  modify fun m => { m with cpu :=
    { m.cpu with delay := countDown m.cpu.delay, sound := countDown m.cpu.sound } }
  if before.cpu.sound = 1 then beep else pure ()

/-- The machine with a cycle on record, if cycles are recorded. The first argument is the
processor when the cycle began. -/
def record (before : Processor) (word : Option Word) (failure : Option Fault)
    (m : Machine κ β δ ρ) : Machine κ β δ ρ :=
  if m.tracing then
    let after := if failure.isSome then before.snapshot else m.cpu.snapshot
    let entry := ⟨before.pc, word, before.snapshot, after, failure.map Fault.message⟩
    { m with trace := m.trace.add entry }
  else m

/-- Counts a completed cycle. -/
def countCycle (m : Machine κ β δ ρ) : Machine κ β δ ρ :=
  { m with cpu := { m.cpu with cycles := m.cpu.cycles + 1 } }

/-- The program counter past the word it points to. -/
def advance (m : Machine κ β δ ρ) : Machine κ β δ ρ :=
  { m with cpu := { m.cpu with pc := (m.cpu.pc + 2) % 0x10000 } }

variable [KeyInput κ] [Sounder β] [Display δ] [ByteSource ρ]

/-- Carries out a word that was fetched at `pc`. -/
def perform (pc : Int) (w : Word) : Action κ β δ ρ Unit := fun m =>
  match w.decode with
  | none => .error (.unknownWord pc w.value) m
  | some _ => execute w m

/-- One cycle. -/
def cycle : Action κ β δ ρ Unit := fun m =>
  match fetch m.cpu with
  | .error f => .error f (m.record m.cpu none f)
  | .ok w =>
    match perform m.cpu.pc w m.advance with
    | .error f m' => .error f (m'.record m.cpu w f)
    | .ok _ m' =>
      match tick m' with
      | .error f m'' => .error f m''
      | .ok _ m'' => .ok () (m''.countCycle.record m.cpu w none)

/-- A number of cycles, or fewer if one fails. -/
def run : Nat → Action κ β δ ρ Unit
  | 0, m => .ok () m
  | n + 1, m =>
    match cycle m with
    | .ok _ m' => run n m'
    | .error f m' => .error f m'

end Machine

end Chip8
