import Chip8.Machine.Frame
import Chip8.Random.Twister
import Chip8.Window.Canvas
import Chip8.Window.Event

/-!
# Window sessions

A session runs a program in a window until the user quits. Each frame handles the events that
came in, runs the cycles that the elapsed time is worth, and shows the picture in the window.
The frame in which the user quits is completed.

What the outside does is given as a script: the events and the clock reading of each frame, and
after the last of them a request to quit. So a session is a function of its script, and what it
asked of the outside is part of the result. Which windows can be opened, and what is seen of what
was painted, is left to the window system.
-/

namespace Chip8

namespace Window

/-- How a window looks and sounds and how fast the machine in it runs. -/
structure Settings where
  /-- The size of a pixel in the window, if it is a number. -/
  scale : Option Quantity
  /-- The speed, in cycles a second, if it is a number. -/
  speed : Option Quantity
  tone : ToneSettings
  /-- The seed of the random bytes, if there is to be one, and if that is a number. -/
  seed : Option (Option Int)
  /-- The colour of lit pixels. -/
  foreground : Colour
  /-- The colour of dark pixels. -/
  background : Colour
  deriving DecidableEq, Repr

/-- White on black in a window ten times the size of the screen. -/
def Settings.standard : Settings where
  scale := some (.whole 10)
  speed := some (.whole Pacer.defaultSpeed)
  tone := .standard
  seed := none
  foreground := [255, 255, 255]
  background := [0, 0, 0]

/-- What happens in one frame. -/
structure Frame where
  events : List Event
  /-- The clock reading, if it changes. -/
  clock : Option Quantity
  deriving DecidableEq, Repr

/-- What the outside does in a session. -/
structure Script where
  /-- The clock reading at the start. -/
  start : Quantity
  frames : List Frame
  /-- The audio hardware, if there is any. -/
  audio : Option AudioFormat
  /-- The number of frames after which the window can show no more. -/
  lastShown : Option Nat
  deriving DecidableEq, Repr

/-- The frames of a script with the request to quit at its end. -/
def Script.allFrames (s : Script) : List Frame := s.frames ++ [⟨[.quit], none⟩]

variable [WindowSystem]

/-- The machine in a window. -/
abbrev WindowMachine := Machine Keypad Speaker Canvas Twister

/-- A session under way. -/
structure Session where
  paced : Paced Keypad Speaker Canvas Twister
  /-- The clock reading at the last frame. -/
  clock : Quantity
  /-- The number of pictures that the window showed. -/
  shown : Nat
  /-- The size of the window in pixels. -/
  size : Int × Int

namespace Session

/-- The machine of a session. -/
def machine (s : Session) : WindowMachine := s.paced.machine

/-- What events act on in a session. -/
def controls (s : Session) : Controls := ⟨s.machine.keys, s.machine.sounder⟩

/-- The session with other controls. -/
def withControls (s : Session) (c : Controls) : Session :=
  { s with paced := { s.paced with machine :=
    { s.paced.machine with keys := c.keypad, sounder := c.speaker } } }

/-- The session after some events. -/
def handle (events : List Event) (s : Session) : Session :=
  s.withControls (events.foldl (fun c e => e.apply c) s.controls)

/-- Runs the cycles of a frame in which the clock reads `now`. -/
def cycles (now : Quantity) : EStateM Failure Session PUnit := fun s =>
  match now.sub s.clock with
  | .error e => .error (.quantity e) s
  | .ok elapsed =>
    match Paced.frame elapsed s.paced with
    | .error e p => .error e { s with paced := p }
    | .ok _ p => .ok ⟨⟩ { s with paced := p, clock := now }

/-- Shows the picture, unless the window can show no more. -/
def present (lastShown : Option Nat) : EStateM Failure Session PUnit := fun s =>
  if lastShown = some s.shown then
    let reason := "failed to present frame: " ++ WindowSystem.flipProblem
    .error (.fault (.device (.broken reason))) s
  else .ok ⟨⟩ { s with shown := s.shown + 1 }

/-- One frame. -/
def frame (lastShown : Option Nat) (f : Frame) : EStateM Failure Session PUnit := do
  modify (handle f.events)
  let s ← get
  cycles (f.clock.getD s.clock)
  present lastShown

/-- Frames up to the first in which the user quits. -/
def run (lastShown : Option Nat) : List Frame → EStateM Failure Session PUnit
  | [], s => .ok ⟨⟩ s
  | f :: fs, s =>
    match frame lastShown f s with
    | .error e s' => .error e s'
    | .ok _ s' => if f.events.any Event.isQuit then .ok ⟨⟩ s' else run lastShown fs s'

end Session

/-- A picture in a window. -/
structure Picture where
  /-- The size of the window in pixels. -/
  size : Int × Int
  /-- The pixels in the foreground colour. -/
  screen : Screen

/-- What a session leaves behind. -/
structure Result where
  /-- The number of cycles, or why the session ended early. -/
  outcome : Except Failure Int
  /-- What was asked of the audio hardware. -/
  calls : List HostCall
  /-- The number of pictures that the window showed. -/
  shown : Nat
  /-- The picture at the end, if the window showed anything. -/
  picture : Option Picture

/-- The request for audio hardware that comes before anything else. -/
def prepare : HostCall :=
  let format := AudioFormat.preferred
  .prepare format.rate format.format format.channels 512

/-- The result of a session that did not get going. -/
def Result.notStarted (calls : Array HostCall) (e : Failure) : Result :=
  ⟨.error e, prepare :: calls.toList, 0, none⟩

/-- The result of a session. -/
def Session.result (outcome : Except Failure Int) (s : Session) : Result where
  outcome := outcome
  calls := prepare :: s.machine.sounder.calls.toList
  shown := s.shown
  picture := if s.shown = 0 then none else some ⟨s.size, s.machine.display.lit⟩

/-- The length of a number of pixels at the scale of the window, if that is a number. -/
def Settings.side (s : Settings) (pixels : Nat) : Option Quantity :=
  s.scale.bind fun scale => ((Quantity.whole pixels).mul scale).toOption

/-- Opens the window that the settings ask for. Gives its size, and a canvas in the colour of dark
pixels. -/
def Settings.openWindow (s : Settings) : Except Failure ((Int × Int) × Canvas) := do
  let size ← (WindowSystem.openWindow (s.side screenWidth) (s.side screenHeight)).mapError .window
  let surface := WindowSystem.newSurface screenWidth screenHeight
  let backbuffer ← (WindowSystem.fill s.background surface).mapError .window
  return (size, ⟨s.foreground, s.background, backbuffer⟩)

/-- The source of random bytes that the settings ask for. -/
def Settings.bytes (s : Settings) : Except Failure Twister :=
  match s.seed with
  | some none => .error .noNumber
  | seed => .ok (Twister.ofSeed (seed.join.getD 0))

/-- The pacer that the settings ask for. -/
def Settings.pacer (s : Settings) : Except Failure Pacer :=
  match s.speed with
  | none => .error .noNumber
  | some speed => (Pacer.create speed (.real Pacer.defaultLongest)).mapError .pacer

/-- A machine that is on, with a program in its memory. -/
def loaded (program : List UInt8) (m : WindowMachine) : Except Failure WindowMachine :=
  match Machine.loadProgram program m with
  | .error f _ => .error (.fault f)
  | .ok _ m => .ok m

/-- Opens a window on a program, or the result of failing to. The window comes first, then the
audio hardware, the random bytes, the program, and the speed last. -/
def Session.start (settings : Settings) (program : List UInt8) (script : Script) :
    Except Result Session := do
  let (size, canvas) ← settings.openWindow.mapError (.notStarted #[])
  let speaker ← (Speaker.create script.audio settings.tone).mapError
    fun e => .notStarted #[] (.wave e)
  let bytes ← settings.bytes.mapError (.notStarted speaker.calls)
  let machine ← (loaded program (Machine.powerOn .initial speaker canvas bytes false
    (.withLimit Trace.defaultLimit))).mapError (.notStarted speaker.calls)
  let pacer ← settings.pacer.mapError (.notStarted speaker.calls)
  return ⟨⟨machine, pacer⟩, script.start, 0, size⟩

/-- Runs a program in a window. -/
def run (settings : Settings) (program : List UInt8) (script : Script) : Result :=
  match Session.start settings program script with
  | .error result => result
  | .ok session =>
    match Session.run script.lastShown script.allFrames session with
    | .error e s => s.result (.error e)
    | .ok _ s => s.result (.ok s.machine.cpu.cycles)

end Window

end Chip8
