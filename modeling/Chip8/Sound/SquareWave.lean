import Chip8.Number.Quantity

/-!
# Square waves

One period of a tone as samples: a high half and a low half. The number of samples of a period is
the sample rate over the pitch, to the nearest integer and at least two. In a wave for several
channels each sample is repeated for every channel.
-/

namespace Chip8

/-- One period of a square wave. -/
structure SquareWave where
  /-- The high sample. The low one is its negative. -/
  amplitude : Int
  /-- The number of high samples of a channel. -/
  high : Nat
  /-- The number of low samples of a channel. -/
  low : Nat
  channels : Nat
  deriving DecidableEq, Repr

namespace SquareWave

/-- A reason why there is no such wave. -/
inductive Problem where
  | quantity (p : Quantity.Problem)
  /-- A sample does not fit into sixteen bits. -/
  | sampleTooLarge
  deriving DecidableEq, Repr

/-- The amplitude of a wave unless told otherwise. -/
def defaultAmplitude : Int := 0x7FFF

/-- Whether a sample fits into sixteen bits. -/
def isSample (n : Int) : Bool :=
  -0x8000 ≤ n && n ≤ 0x7FFF

/-- The number of samples of a period of a channel. -/
def period (rate pitch : Quantity) : Except Quantity.Problem Nat := do
  let x ← Quantity.finite (← rate.div pitch)
  return max x.round.toNat 2

/-- A wave of a given pitch at a given sample rate. -/
def create (rate pitch : Quantity) (channels amplitude : Int) : Except Problem SquareWave :=
  match period rate pitch with
  | .error p => .error (.quantity p)
  | .ok n =>
    if 0 < channels ∧ ¬(isSample amplitude && isSample (-amplitude)) then .error .sampleTooLarge
    else .ok ⟨amplitude, n / 2, n - n / 2, channels.toNat⟩

/-- The number of samples. -/
def length (w : SquareWave) : Nat := (w.high + w.low) * w.channels

/-- The samples, those of the channels side by side. -/
def samples (w : SquareWave) : List Int :=
  List.replicate (w.high * w.channels) w.amplitude ++
    List.replicate (w.low * w.channels) (-w.amplitude)

theorem length_samples (w : SquareWave) : w.samples.length = w.length := by
  simp [samples, length, Nat.add_mul]

/-- The samples as runs of equal ones. -/
def runs (w : SquareWave) : List (Int × Nat) :=
  if w.amplitude = 0 then [(0, w.length)].filter (0 < ·.2)
  else [(w.amplitude, w.high * w.channels), (-w.amplitude, w.low * w.channels)].filter (0 < ·.2)

end SquareWave

end Chip8
