import Chip8.Window.System

/-!
# Windows in memory

A window system that needs no desktop. A surface is kept as the colours of its pixels, and a window
is no more than its size. Not all sizes and colours will do, and those are refused that a desktop
would refuse as well.

## Main definitions

* `Raster` — a surface in memory
* `openedSize` — the size of a window with given sides
* `isColour` — which lists of numbers are colours
-/

namespace Chip8

namespace Window

/-! ### Sizes -/

/-- The longest side of a window. -/
def longestSide : Int := 16384

/-- The size of a window that fills the desktop. -/
def desktopSize : Int × Int := (1024, 768)

/-- The least integer of 32 bits with sign. -/
def leastSide : Int := -0x80000000

/-- The length that a number stands for. Of an integer the low 32 bits count, if it fits in 64. Of
a floating point number the integer part counts, and one that does not fit in 32 bits stands for
the least length. -/
def sideLength? : Quantity → Option Int
  | .whole n =>
    if -0x8000000000000000 ≤ n ∧ n ≤ 0x7FFFFFFFFFFFFFFF then some (n.bmod 0x100000000) else none
  | .real x =>
    if x.isNaN || x.isInfinite then some leastSide
    else
      let n := x.truncate
      some (if leastSide ≤ n ∧ n ≤ 0x7FFFFFFF then n else leastSide)

/-- The size of a window with two given sides. A window without any size fills the desktop, and
other sides are brought between one pixel and `longestSide`. -/
def openedSize (width height : Option Quantity) : Except Refusal (Int × Int) :=
  match width.bind sideLength?, height.bind sideLength? with
  | some width, some height =>
    if width < 0 ∨ height < 0 then .error .negativeSize
    else if width = 0 ∧ height = 0 then .ok desktopSize
    else .ok (max 1 (min width longestSide), max 1 (min height longestSide))
  | _, _ => .error .noSize

/-! ### Surfaces -/

/-- Whether a list of numbers is a colour: three or four bytes. -/
def isColour (c : Colour) : Bool :=
  (c.length == 3 || c.length == 4) && c.all fun n => 0 ≤ n && n ≤ 0xFF

/-- A surface in memory. -/
structure Raster where
  width : Nat
  height : Nat
  /-- The colours of the pixels, row by row. -/
  pixels : Vector Colour (width * height)

namespace Raster

/-- A surface that is all black. -/
def black (width height : Nat) : Raster := ⟨width, height, .replicate _ [0, 0, 0]⟩

/-- Whether a column and a row lie on a surface. -/
def Holds (r : Raster) (x y : Nat) : Prop := x < r.width ∧ y < r.height

instance (r : Raster) (x y : Nat) : Decidable (r.Holds x y) := inferInstanceAs (Decidable (_ ∧ _))

/-- The colour of the pixel in a column and a row. -/
def get (r : Raster) (x y : Nat) : Colour := r.pixels[y * r.width + x]?.getD []

/-- A surface with a pixel in another colour. There is nothing to paint beyond its sides. -/
def set (r : Raster) (x y : Nat) (c : Colour) : Raster :=
  if r.Holds x y then { r with pixels := r.pixels.setIfInBounds (y * r.width + x) (c.take 3) }
  else r

/-- A surface in a single colour. -/
def filled (r : Raster) (c : Colour) : Raster := { r with pixels := .replicate _ (c.take 3) }

/-- A step on a surface that needs a colour. -/
def painting (c : Colour) (f : Raster → Raster) : EStateM DeviceFailure Raster Unit := fun r =>
  if isColour c then .ok () (f r) else .error .noSuchColour r

end Raster

/-- The window system that keeps its surfaces in memory. -/
instance Raster.windowSystem : WindowSystem where
  Surface := Raster
  openWindow := openedSize
  newSurface := .black
  size r := (r.width, r.height)
  fill c r := if isColour c then .ok (r.filled c) else .error .noSuchColour
  lock := pure ()
  unlock := pure ()
  setAt x y c := Raster.painting c (·.set x y c)
  getAt x y r := r.get x y
  flipProblem := "flip failed"

end Window

end Chip8
