import Chip8.Machine.Trace
import Chip8.Processor.Effect
import Chip8.Video

/-!
# The machine

A processor, a screen on a display, keys, a tone and a source of random bytes, and the trace of
what was done. The kinds of the four devices are parameters.

An action may stop with a fault. It leaves behind the machine as it was when the fault arose, so
what had been done up to then remains.
-/

namespace Chip8

/-- A machine with its devices: keys `κ`, tone `β`, display `δ` and random bytes `ρ`. -/
structure Machine (κ β δ ρ : Type) where
  cpu : Processor
  video : Video δ
  keys : κ
  sounder : β
  bytes : ρ
  /-- Whether cycles are recorded. -/
  tracing : Bool
  trace : Trace

namespace Machine

variable {κ β δ ρ : Type}

/-- A change of a machine that may stop with a fault. -/
abbrev Action (κ β δ ρ : Type) := EStateM Fault (Machine κ β δ ρ)

/-- A machine before anything was run. -/
def powerOn (keys : κ) (sounder : β) (display : δ) (bytes : ρ) (tracing : Bool)
    (trace : Trace) : Machine κ β δ ρ where
  cpu := .powerOn
  video := ⟨.blank, display⟩
  keys := keys
  sounder := sounder
  bytes := bytes
  tracing := tracing
  trace := trace

/-- The screen of a machine. -/
def screen (m : Machine κ β δ ρ) : Screen := m.video.screen

/-- The display of a machine. -/
def display (m : Machine κ β δ ρ) : δ := m.video.display

/-- An effect on the processor as an action. -/
def onCpu {α : Type} (e : Processor.Effect α) : Action κ β δ ρ α := fun m =>
  match e m.cpu with
  | .ok a p => .ok a { m with cpu := p }
  | .error f p => .error f { m with cpu := p }

/-- An effect on the screen as an action. -/
def onVideo {α : Type} (e : Video.Effect δ α) : Action κ β δ ρ α := fun m =>
  match e m.video with
  | .ok a v => .ok a { m with video := v }
  | .error f v => .error f { m with video := v }

/-- Draws a random byte. -/
def randomByte [ByteSource ρ] : Action κ β δ ρ UInt8 := fun m =>
  let (b, source) := ByteSource.draw m.bytes
  .ok b { m with bytes := source }

/-- Sounds the tone. -/
def beep [Sounder β] : Action κ β δ ρ Unit := fun m =>
  let used := Sounder.beep m.sounder
  match used.failure with
  | none => .ok () { m with sounder := used.device }
  | some reason => .error (.device reason) { m with sounder := used.device }

/-- Puts a program into memory at `programStart`. -/
def loadProgram (program : List UInt8) : Action κ β δ ρ Unit :=
  onCpu <| .ofExcept fun p =>
    if maxProgramSize < program.length then
      .error (.programTooLarge program.length maxProgramSize)
    else p.write programStart (program.map (·.toNat))

/-- Switches the machine off and on: processor and trace are as new, and the screen is cleared. -/
def reset [Display δ] : Action κ β δ ρ Unit := do
  modify fun m => { m with cpu := .powerOn, trace := m.trace.clear }
  onVideo Video.clear

end Machine

end Chip8
