import Chip8.Window.System

/-!
# What a window shows

A window shows a canvas: a surface with one pixel for each pixel of the screen, and the two colours
in which screens are painted on it. All pixels are painted each time, row by row. If one of them
cannot be painted, the others behind it stay as they are.
-/

namespace Chip8

namespace Window

open WindowSystem

variable [WindowSystem]

/-- A display that paints screens in two colours. -/
structure Canvas where
  /-- The colour of lit pixels. -/
  foreground : Colour
  /-- The colour of dark pixels. -/
  background : Colour
  backbuffer : Surface

/-- Paints the rows of a screen. Whatever comes of it, the surface is unlocked afterwards. -/
def paint (foreground background : Colour) (grid : List (List Bool)) :
    EStateM DeviceFailure Surface Unit := do
  lock
  try
    forM grid.zipIdx fun (row, y) =>
      forM row.zipIdx fun (lit, x) => setAt x y (if lit then foreground else background)
  finally
    unlock

/-- A failure of the window system, as the machine is told of it. -/
def drawingFailure : DeviceFailure → DeviceFailure
  | .broken reason => .broken ("failed to draw frame: " ++ reason)
  | .noSuchColour => .noSuchColour

namespace Canvas

/-- The canvas after a screen was painted on it, as far as that could be done. -/
def draw (s : Screen) (c : Canvas) : Used Canvas :=
  match paint c.foreground c.background s.grid c.backbuffer with
  | .ok _ b => .well { c with backbuffer := b }
  | .error e b => ⟨{ c with backbuffer := b }, some (drawingFailure e)⟩

/-- The pixels that are seen in the foreground colour. -/
def lit (c : Canvas) : Screen :=
  .ofPixels fun x y => getAt x y c.backbuffer == c.foreground.take 3

end Canvas

instance : Display Canvas := ⟨Canvas.draw⟩

end Window

end Chip8
