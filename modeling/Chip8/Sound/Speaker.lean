import Chip8.Device
import Chip8.Sound.SquareWave

/-!
# The speaker

A tone is a looping square wave that plays until it is shut off. Sounding it starts the wave if it
is silent, and sets the shut-off timer anew in any case: so a tone that is sounded again while it
plays goes on for its full time, and there is only ever one timer.

What is asked of the audio hardware is kept as a list of calls. Without any audio hardware a
speaker is mute, and asks for nothing.
-/

namespace Chip8

/-- A call to the audio hardware. -/
inductive HostCall where
  /-- Asks for a format before the hardware is opened. -/
  | prepare (rate format channels buffer : Int)
  /-- Makes a sound of a number of samples. -/
  | sound (samples : Nat)
  | volume (v : Quantity)
  /-- Starts the sound, repeated a number of times, or for ever if that is below zero. -/
  | play (loops : Int)
  | stop
  /-- Sets the shut-off timer in milliseconds, to go off a number of times. -/
  | timer (milliseconds loops : Int)
  deriving DecidableEq, Repr

/-- What the audio hardware was opened with. -/
structure AudioFormat where
  rate : Int
  format : Int
  channels : Int
  deriving DecidableEq, Repr

/-- The format that is asked for: mono at the usual rate, in sixteen bits with sign. -/
def AudioFormat.preferred : AudioFormat := ⟨44100, -16, 1⟩

/-- What a tone is to be like. -/
structure ToneSettings where
  /-- The pitch, in periods a second. -/
  pitch : Quantity
  /-- How long a tone lasts, in seconds. -/
  seconds : Quantity
  volume : Quantity
  deriving DecidableEq, Repr

/-- A fifth of a second of concert pitch at a tenth of the volume. -/
def ToneSettings.standard : ToneSettings :=
  ⟨.whole 440, .real ⟨0x3FC999999999999A⟩, .real ⟨0x3FB999999999999A⟩⟩

/-- A tone on audio hardware. -/
structure Tone where
  /-- How long it lasts, in milliseconds. -/
  duration : Int
  playing : Bool
  deriving DecidableEq, Repr

/-- A speaker, and the calls it made. It has no tone if it is mute. -/
structure Speaker where
  tone : Option Tone
  calls : Array HostCall
  deriving DecidableEq, Repr

namespace Speaker

/-- The length of a tone in milliseconds, at least one. -/
def duration (seconds : Quantity) : Except Quantity.Problem Int := do
  return max (← (← seconds.mul (.whole 1000)).truncate) 1

/-- A speaker on audio hardware, or a mute one without any. -/
def create (audio : Option AudioFormat) (s : ToneSettings) : Except SquareWave.Problem Speaker :=
  match audio with
  | none => .ok ⟨none, #[]⟩
  | some a => do
    let duration ← (duration s.seconds).mapError .quantity
    let wave ← SquareWave.create (.whole a.rate) s.pitch a.channels SquareWave.defaultAmplitude
    return ⟨some ⟨duration, false⟩, #[.sound wave.length, .volume s.volume]⟩

/-- The speaker after it was sounded. -/
def beep (s : Speaker) : Speaker :=
  match s.tone with
  | none => s
  | some t =>
    let started := if t.playing then s.calls else s.calls.push (.play (-1))
    ⟨some { t with playing := true }, started.push (.timer t.duration 1)⟩

/-- The speaker after it was shut off. -/
def silence (s : Speaker) : Speaker :=
  match s.tone with
  | none => s
  | some t => ⟨some { t with playing := false }, s.calls.push .stop⟩

end Speaker

instance : Sounder Speaker := ⟨fun s => .well s.beep⟩

end Chip8
