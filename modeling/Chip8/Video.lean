import Chip8.Device
import Chip8.Fault

/-!
# A screen on a display

Every change of the screen ends by presenting it. The screen changes first, so a display that
fails leaves the change in place.
-/

namespace Chip8

/-- A screen and the display it is presented on. -/
structure Video (δ : Type) where
  screen : Screen
  display : δ

namespace Video

variable {δ : Type} [Display δ]

/-- Changes of a screen that may stop with a fault. -/
abbrev Effect (δ : Type) := EStateM Fault (Video δ)

/-- Puts a screen in place of the one shown, and presents it. -/
def replace (s : Screen) : Effect δ Unit := fun v =>
  let used := Display.present s v.display
  match used.failure with
  | none => .ok () ⟨s, used.device⟩
  | some reason => .error (.device reason) ⟨s, used.device⟩

/-- Turns every pixel off. -/
def clear : Effect δ Unit := replace .blank

/-- Draws a sprite at column `x`, row `y`, and tells whether it covered a lit pixel. -/
def draw (x y : Nat) (sprite : Sprite) : Effect δ Bool := do
  let v ← get
  replace (v.screen.draw x y sprite)
  return v.screen.collides x y sprite

end Video

end Chip8
