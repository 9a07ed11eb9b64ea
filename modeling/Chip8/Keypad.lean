import Chip8.Layout

/-!
# The keypad

Sixteen keys, each up or down. A release is an edge: a key counts as released while it is up but
was down when the last input frame was closed. Programs wait for releases, so a frame is closed
only after at least one cycle has seen it; until then the edge stays visible.

Keys are numbers below sixteen, and a set of keys is a bit vector with one bit for each.
-/

namespace Chip8

/-- The number of a key. -/
abbrev Key := Fin keyCount

/-- The keys that are down, and those that were down when the last input frame was closed. -/
structure Keypad where
  down : BitVec keyCount
  before : BitVec keyCount
  deriving DecidableEq, Repr

namespace Keypad

/-- The keypad with all keys up. -/
def initial : Keypad := ⟨0, 0⟩

/-- Only the given key. -/
def only (k : Key) : BitVec keyCount := BitVec.twoPow keyCount k

/-- The keypad with a key pressed. -/
def press (p : Keypad) (k : Key) : Keypad := { p with down := p.down ||| only k }

/-- The keypad with a key let go. -/
def release (p : Keypad) (k : Key) : Keypad := { p with down := p.down &&& ~~~only k }

/-- Closes an input frame. -/
def closeFrame (p : Keypad) : Keypad := { p with before := p.down }

/-- The keys that are up and were down when the last frame was closed. -/
def released (p : Keypad) : BitVec keyCount := p.before &&& ~~~p.down

/-- Whether a key is down. -/
def isDown (p : Keypad) (k : Key) : Bool := p.down.getLsbD k

/-- Whether a key is up and was down when the last frame was closed. -/
def wasReleased (p : Keypad) (k : Key) : Bool := p.released.getLsbD k

/-- The key with a given number. -/
def key? (n : Int) : Option Key :=
  if h : 0 ≤ n ∧ n.toNat < keyCount then some ⟨n.toNat, h.2⟩ else none

theorem isDown_press (p : Keypad) (k j : Key) :
    (p.press k).isDown j = (p.isDown j || j == k) := by
  simp only [isDown, press, only, BitVec.getLsbD_or, BitVec.getLsbD_twoPow]
  have := j.isLt
  by_cases h : j = k
  · simp [h]
  · have : ¬(k : Nat) = j := fun e => h (Fin.ext e.symm)
    simp [h, this]

theorem isDown_release (p : Keypad) (k j : Key) :
    (p.release k).isDown j = (p.isDown j && j != k) := by
  simp only [isDown, release, only, BitVec.getLsbD_and, BitVec.getLsbD_not, BitVec.getLsbD_twoPow]
  have := j.isLt
  by_cases h : j = k
  · simp [h]
  · have : ¬(k : Nat) = j := fun e => h (Fin.ext e.symm)
    simp [h, this]

theorem wasReleased_eq (p : Keypad) (k : Key) :
    p.wasReleased k = (p.before.getLsbD k && !p.isDown k) := by
  have := k.isLt
  simp [wasReleased, released, isDown]

end Keypad

end Chip8
