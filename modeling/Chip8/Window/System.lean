import Chip8.Device
import Chip8.Number.Quantity

/-!
# Window systems

A window system opens windows and paints on surfaces. It comes from outside, and a program that is
run in a window takes it as it is: which sizes and colours will do, which calls fail and for what
reason, and what a surface keeps of what was painted on it, is not decided here.

Calls that paint are steps on a surface. One that fails leaves a surface as well, since what was
painted before stays.

What can be relied on is said by `WindowSystem.Lawful`. It speaks of calls that succeed. That calls
do succeed is never assumed of a window system as such, and `WindowSystem.Paints` says it of a
colour.
-/

namespace Chip8

namespace Window

/-- A reason why there is no window of a given kind. -/
inductive Refusal where
  /-- A side is no number, or one that is out of reach. -/
  | noSize
  | negativeSize
  /-- The background is no colour. -/
  | noSuchColour
  deriving DecidableEq, Repr

/-- A refusal in words. -/
def Refusal.message : Refusal → String
  | noSize => "size must be two numbers"
  | negativeSize => "Cannot set negative sized display mode"
  | noSuchColour => DeviceFailure.noSuchColour.message

/-- A colour as red, green and blue. More numbers than these make no difference to what is seen. -/
abbrev Colour := List Int

end Window

open Window (Colour Refusal)

/-- What opens windows and paints on surfaces. -/
class WindowSystem where
  Surface : Type
  /-- Opens a window with two given sides, if they are numbers, and tells its size in pixels. -/
  openWindow : Option Quantity → Option Quantity → Except Refusal (Int × Int)
  /-- A surface of a given width and height. -/
  newSurface : Nat → Nat → Surface
  /-- The width and height of a surface. -/
  size : Surface → Nat × Nat
  /-- Paints all of a new surface. -/
  fill : Colour → Surface → Except Refusal Surface
  /-- Has to be done before single pixels are painted. -/
  lock : EStateM DeviceFailure Surface Unit
  /-- Has to be done after single pixels were painted. -/
  unlock : EStateM DeviceFailure Surface Unit
  /-- Paints the pixel in a column and a row. -/
  setAt : Nat → Nat → Colour → EStateM DeviceFailure Surface Unit
  /-- The red, green and blue of the pixel in a column and a row. -/
  getAt : Nat → Nat → Surface → Colour
  /-- Why a window can show no more, in words. -/
  flipProblem : String

namespace WindowSystem

/-- What calls do that succeed: a surface keeps its size, what was painted in a colour is seen in
it, and the rest is as it was. -/
structure Lawful [WindowSystem] : Prop where
  newSurface : ∀ width height, size (WindowSystem.newSurface width height) = (width, height)
  fill : ∀ {c b b'}, WindowSystem.fill c b = .ok b' →
    size b' = size b ∧ ∀ x < (size b).1, ∀ y < (size b).2, getAt x y b' = c.take 3
  lock : ∀ {b b'}, WindowSystem.lock b = .ok () b' →
    size b' = size b ∧ ∀ x < (size b).1, ∀ y < (size b).2, getAt x y b' = getAt x y b
  unlock : ∀ {b b'}, WindowSystem.unlock b = .ok () b' →
    size b' = size b ∧ ∀ x < (size b).1, ∀ y < (size b).2, getAt x y b' = getAt x y b
  setAt : ∀ {x y c b b'}, x < (size b).1 → y < (size b).2 →
    WindowSystem.setAt x y c b = .ok () b' →
    size b' = size b ∧ ∀ x' < (size b).1, ∀ y' < (size b).2,
      getAt x' y' b' = if x' = x ∧ y' = y then c.take 3 else getAt x' y' b

/-- The calls succeed by which single pixels are painted in a colour. -/
def Paints [WindowSystem] (c : Colour) : Prop :=
  ∀ b, ∀ x < (size b).1, ∀ y < (size b).2, ∃ b', setAt x y c b = .ok () b'

end WindowSystem

end Chip8
