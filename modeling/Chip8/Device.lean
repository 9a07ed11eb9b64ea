import Chip8.Keypad
import Chip8.Screen

/-!
# Devices

What a machine needs of the outside: keys to look at, a tone to sound, a display to present its
screen on, and a source of random bytes. Each is a type class, so a machine is the same whether
it runs in a window or without one.

A device is a value like any other. Using it gives the device afterwards; a tone or a display may
fail as well, for a reason that has words, and the device afterwards is then the one that failed.

The devices below need no hardware. They count, record, replay, or do nothing.
-/

namespace Chip8

/-- Keys that can be looked at. -/
class KeyInput (κ : Type) where
  /-- Whether a key is down. -/
  isDown : κ → Key → Bool
  /-- Whether a key was let go in this input frame. -/
  wasReleased : κ → Key → Bool
  /-- Closes the input frame, if there are input frames. -/
  closeFrame? : κ → Option κ

/-- A reason why a device failed. -/
inductive DeviceFailure where
  /-- The device does not work, for a reason of its own. -/
  | broken (reason : String)
  /-- The device was asked for a colour that there is not. -/
  | noSuchColour
  deriving DecidableEq, Repr

/-- The reason in words. -/
def DeviceFailure.message : DeviceFailure → String
  | broken reason => reason
  | noSuchColour => "invalid color argument"

/-- What a device is after its use, and the reason if it failed. -/
structure Used (δ : Type) where
  device : δ
  failure : Option DeviceFailure

/-- A tone that can be sounded, and ends by itself. -/
class Sounder (β : Type) where
  beep : β → Used β

/-- A display that can present a screen. -/
class Display (δ : Type) where
  present : Screen → δ → Used δ

/-- A source of random bytes. -/
class ByteSource (ρ : Type) where
  /-- The next byte, and the source after it. -/
  draw : ρ → UInt8 × ρ

/-- A device that did its work. -/
def Used.well {δ : Type} (d : δ) : Used δ := ⟨d, none⟩

/-! ## Keys -/

instance : KeyInput Keypad := ⟨Keypad.isDown, Keypad.wasReleased, fun k => some k.closeFrame⟩

/-- No keyboard: nothing is ever pressed, and there are no input frames. -/
structure NoKeys where
  deriving DecidableEq, Repr

instance : KeyInput NoKeys := ⟨fun _ _ => false, fun _ _ => false, fun _ => none⟩

/-- Keys of either of two kinds. -/
instance {κ₁ κ₂ : Type} [KeyInput κ₁] [KeyInput κ₂] : KeyInput (κ₁ ⊕ κ₂) where
  isDown
    | .inl d => KeyInput.isDown d
    | .inr d => KeyInput.isDown d
  wasReleased
    | .inl d => KeyInput.wasReleased d
    | .inr d => KeyInput.wasReleased d
  closeFrame?
    | .inl d => (KeyInput.closeFrame? d).map .inl
    | .inr d => (KeyInput.closeFrame? d).map .inr

/-! ## Sound -/

/-- Counts how often it was sounded. -/
structure BeepCounter where
  count : Nat
  /-- Why it fails, if it does. It counts even so. -/
  failure : Option DeviceFailure
  deriving DecidableEq, Repr

namespace BeepCounter

/-- A counter that works. -/
def fresh : BeepCounter := ⟨0, none⟩

end BeepCounter

instance : Sounder BeepCounter := ⟨fun b => ⟨{ b with count := b.count + 1 }, b.failure⟩⟩

/-! ## Display -/

/-- Remembers what was presented. -/
structure Recorder where
  /-- The number of screens presented. -/
  count : Nat
  /-- The last of them. -/
  last : Option Screen
  /-- All of them, if they are kept. -/
  history : Option (Array Screen)
  /-- How many can be presented before the display is gone. -/
  capacity : Option Nat

namespace Recorder

/-- A recorder with unlimited capacity that keeps the last screen only. -/
def fresh : Recorder := ⟨0, none, none, none⟩

/-- A recorder that keeps all screens. -/
def keepingAll : Recorder := { fresh with history := some #[] }

/-- Whether nothing more can be presented. -/
def isGone (r : Recorder) : Bool :=
  match r.capacity with
  | some n => n ≤ r.count
  | none => false

/-- The recorder with one more screen. -/
def add (s : Screen) (r : Recorder) : Recorder :=
  { r with count := r.count + 1, last := some s, history := r.history.map (·.push s) }

end Recorder

instance : Display Recorder where
  present s r := if r.isGone then ⟨r, some (.broken "window gone")⟩ else .well (r.add s)

/-! ## Bytes -/

/-- Bytes that are dealt out in turn, from the first again after the last. Without any bytes it
deals out zeros. -/
structure ByteLoop where
  bytes : Array UInt8
  next : Nat
  deriving DecidableEq, Repr

/-- The next byte of a loop, and the loop after it. -/
def ByteLoop.draw (l : ByteLoop) : UInt8 × ByteLoop :=
  match l.bytes[l.next]? with
  | some b => (b, { l with next := (l.next + 1) % l.bytes.size })
  | none => (0, l)

instance : ByteSource ByteLoop := ⟨ByteLoop.draw⟩

/-- Bytes from either of two kinds of source. -/
instance {ρ₁ ρ₂ : Type} [ByteSource ρ₁] [ByteSource ρ₂] : ByteSource (ρ₁ ⊕ ρ₂) where
  draw
    | .inl s => let (b, s) := ByteSource.draw s; (b, .inl s)
    | .inr s => let (b, s) := ByteSource.draw s; (b, .inr s)

end Chip8
