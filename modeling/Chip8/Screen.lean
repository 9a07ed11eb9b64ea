/-!
# The screen

Thirty-two rows of sixty-four pixels, each on or off. A row is a bit vector whose highest bit is
the leftmost pixel, so a sprite is drawn by shifting its bytes into place and flipping the pixels
they cover. What lies beyond the right edge is shifted out, and rows below the bottom are left
out: nothing wraps around.

## Main definitions

* `Screen.pixel`, whether a pixel is lit, the view in which everything else is described
* `Sprite.covers`, which pixels a sprite at some place covers
* `Screen.draw`, `Screen.collides`
-/

namespace Chip8

/-- The number of columns. -/
def screenWidth : Nat := 64

/-- The number of rows. -/
def screenHeight : Nat := 32

/-- Pixels on or off. -/
structure Screen where
  /-- The rows from the top, the leftmost pixel as the highest bit. -/
  rows : Vector (BitVec screenWidth) screenHeight
  deriving DecidableEq

/-- Rows of eight pixels from the top, the leftmost pixel as bit seven. Only the low eight bits
of a row count. -/
abbrev Sprite := List Int

namespace Sprite

/-- Whether a sprite at column `x`, row `y` covers the pixel at column `c`, row `r`. -/
def covers (s : Sprite) (x y c r : Nat) : Bool :=
  x ≤ c && c < x + 8 && y ≤ r &&
    match s[r - y]? with
    | some bits => (BitVec.ofInt 8 bits).getMsbD (c - x)
    | none => false

/-- One row of a sprite at column `x`, as pixels of a row of the screen. -/
def place (bits : Int) (x : Nat) : BitVec screenWidth :=
  ((BitVec.ofInt 8 bits).setWidth screenWidth <<< 56) >>> x

/-- The pixels that a sprite at column `x`, row `y` covers. -/
def mask (s : Sprite) (x y : Nat) : Vector (BitVec screenWidth) screenHeight :=
  Vector.ofFn fun r =>
    if y ≤ r then
      match s[r.val - y]? with
      | some bits => place bits x
      | none => 0
    else 0

end Sprite

namespace Screen

/-- The screen with every pixel off. -/
def blank : Screen := ⟨Vector.replicate screenHeight 0⟩

/-- Whether the pixel at column `c`, row `r` is lit. -/
def pixel (s : Screen) (c r : Nat) : Bool :=
  match s.rows[r]? with
  | some row => row.getMsbD c
  | none => false

/-- The screen on which the pixel at column `c`, row `r` is lit if `lit c r` holds. -/
def ofPixels (lit : Nat → Nat → Bool) : Screen :=
  ⟨Vector.ofFn fun r =>
    (BitVec.ofBoolListBE ((List.range screenWidth).map (lit · r))).cast
      (by rw [List.length_map, List.length_range])⟩

/-- The screen after a sprite was drawn: every pixel it covers is flipped. -/
def draw (s : Screen) (x y : Nat) (sprite : Sprite) : Screen :=
  ⟨s.rows.zipWith (· ^^^ ·) (sprite.mask x y)⟩

/-- Whether a sprite covers a lit pixel. -/
def collides (s : Screen) (x y : Nat) (sprite : Sprite) : Bool :=
  (s.rows.zipWith (· &&& ·) (sprite.mask x y)).any (· ≠ 0)

/-- The rows as lists of pixels. -/
def grid (s : Screen) : List (List Bool) :=
  s.rows.toList.map fun row => (List.range screenWidth).map row.getMsbD

/-- The columns and rows of the lit pixels, row by row. -/
def lit (s : Screen) : List (Nat × Nat) :=
  (List.range screenHeight).flatMap fun r =>
    ((List.range screenWidth).filter fun c => s.pixel c r).map fun c => (c, r)

/-- The rows with a lit pixel, each with its number. -/
def litRows (s : Screen) : List (Nat × BitVec screenWidth) :=
  ((List.range screenHeight).zip s.rows.toList).filter fun (_, row) => row ≠ 0

@[simp] theorem pixel_blank (c r : Nat) : blank.pixel c r = false := by
  unfold pixel blank
  split
  · rename_i row h
    simp only [Vector.getElem?_replicate] at h
    split at h <;> simp_all
    subst h
    simp
  · rfl

end Screen

/-- Pixels as lines of text, with the texts for lit and dark pixels. -/
def gridText (lit dark : String) (grid : List (List Bool)) : String :=
  "\n".intercalate (grid.map fun row => String.join (row.map fun b => if b then lit else dark))

/-- A screen as lines of text. -/
def Screen.text (s : Screen) : String :=
  gridText "#" "." s.grid

end Chip8
