import Chip8.Failure
import Chip8.Machine.Cycle

/-!
# Frames

A frame runs the cycles that the time since the last one is worth, and then closes the input frame
of the keys. Without any cycle the input frame stays open, so that a key that was let go is still
seen to be by the next cycle.

Keys without input frames have none to close: a frame with such keys fails once its cycles were
run.
-/

namespace Chip8

/-- A machine and what paces it. -/
structure Paced (κ β δ ρ : Type) where
  machine : Machine κ β δ ρ
  pacer : Pacer

namespace Paced

variable {κ β δ ρ : Type} [KeyInput κ] [Sounder β] [Display δ] [ByteSource ρ]

/-- Closes the input frame. -/
def closeFrame : EStateM Failure (Machine κ β δ ρ) Unit := fun m =>
  match KeyInput.closeFrame? m.keys with
  | some keys => .ok () { m with keys := keys }
  | none => .error .noInputFrames m

/-- One frame after some elapsed seconds. Gives the number of cycles. -/
def frame (elapsed : Quantity) : EStateM Failure (Paced κ β δ ρ) Int := fun s =>
  match Pacer.advance elapsed s.pacer with
  | .error e p => .error (.quantity e) ⟨s.machine, p⟩
  | .ok n p =>
    match Machine.run n.toNat s.machine with
    | .error f m => .error (.fault f) ⟨m, p⟩
    | .ok _ m =>
      if n = 0 then .ok n ⟨m, p⟩
      else
        match closeFrame m with
        | .error e m => .error e ⟨m, p⟩
        | .ok _ m => .ok n ⟨m, p⟩

end Paced

end Chip8
