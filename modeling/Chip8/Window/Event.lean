import Chip8.Sound.Speaker

/-!
# Window events

What the user and the shut-off timer tell the program. The keypad lies on the left of the
keyboard:

```
  1 2 3 C        1 2 3 4
  4 5 6 D        Q W E R
  7 8 9 E        A S D F
  A 0 B F        Z X C V
```

Other keys do nothing, apart from Escape, which quits.
-/

namespace Chip8

namespace Window

/-- Something that happened at the window. -/
inductive Event where
  /-- A key of the keyboard was pressed, given by its code. -/
  | keyDown (code : Int)
  /-- A key of the keyboard was let go. -/
  | keyUp (code : Int)
  | quit
  /-- The shut-off timer of the tone went off. -/
  | toneOver
  /-- Anything else. -/
  | other
  deriving DecidableEq, Repr

/-- The code of the Escape key. -/
def escapeCode : Int := 27

/-- A key of the keypad. -/
def key (n : Nat) (h : n < keyCount := by decide) : Key := ⟨n, h⟩

/-- The keys of the keyboard that stand for keys of the keypad, by their codes. -/
def keymap : List (Int × Key) := [
  (49, key 0x1), (50, key 0x2), (51, key 0x3), (52, key 0xC),
  (97, key 0x7), (99, key 0xB), (100, key 0x9), (101, key 0x6),
  (102, key 0xE), (113, key 0x4), (114, key 0xD), (115, key 0x8),
  (118, key 0xF), (119, key 0x5), (120, key 0x0), (122, key 0xA)]

/-- The key of the keypad that a key of the keyboard stands for. -/
def keyOfCode? (code : Int) : Option Key := keymap.lookup code

/-- What events act on. -/
structure Controls where
  keypad : Keypad
  speaker : Speaker
  deriving DecidableEq, Repr

namespace Event

/-- Whether an event asks to quit. -/
def isQuit : Event → Bool
  | quit => true
  | keyDown code => code == escapeCode
  | _ => false

/-- The controls after an event. -/
def apply (e : Event) (c : Controls) : Controls :=
  match e with
  | keyDown code =>
    match keyOfCode? code with
    | some k => { c with keypad := c.keypad.press k }
    | none => c
  | keyUp code =>
    match keyOfCode? code with
    | some k => { c with keypad := c.keypad.release k }
    | none => c
  | toneOver => { c with speaker := c.speaker.silence }
  | quit | other => c

end Event

end Window

end Chip8
