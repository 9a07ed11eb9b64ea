import Chip8.Screen
import Mathlib.Tactic.IntervalCases

/-!
# The screen, pixel by pixel

A sprite is drawn a row at a time, by shifting its bytes into place and flipping bits. Here the same
is said of a single pixel: it is flipped if the sprite covers it, and left alone otherwise. The
edges need no case of their own. What is shifted out on the right has no pixel, and a row below the
bottom is no row of the screen.

A screen is known by its pixels, so everything about screens can be said in this view.

## Main results

* `Sprite.covers_iff` — the pixels that a sprite covers
* `Screen.pixel_draw` — a pixel after a sprite was drawn
* `Screen.collides_iff` — when a sprite covers a lit pixel
* `Screen.ext_pixel` — screens with the same pixels are the same
* `Screen.draw_draw`, `Screen.collides_neither_iff` — a sprite drawn twice
-/

namespace Chip8

namespace Sprite

/-- The row of a sprite begins at its column, and has eight pixels. -/
theorem getMsbD_place (bits : Int) (x : Nat) {c : Nat} (hc : c < screenWidth) :
    (place bits x).getMsbD c = (decide (x ≤ c) && (BitVec.ofInt 8 bits).getMsbD (c - x)) := by
  have hback : c - x + 56 + 8 - screenWidth = c - x := Nat.add_sub_cancel (c - x) screenWidth
  have hlow : screenWidth - 8 ≤ c - x + 56 := Nat.le_add_left 56 (c - x)
  rw [place, BitVec.getMsbD_ushiftRight, BitVec.getMsbD_shiftLeft, BitVec.getMsbD_setWidth, hback]
  by_cases hx : x ≤ c
  · have hlt : ¬c < x := Nat.not_lt.mpr hx
    simp [hc, hx, hlt, hlow]
  · have hlt : c < x := Nat.not_le.mp hx
    simp [hx, hlt]

theorem getMsbD_mask (s : Sprite) (x y : Nat) {c r : Nat} (hc : c < screenWidth)
    (hr : r < screenHeight) : (s.mask x y)[r].getMsbD c = s.covers x y c r := by
  rw [mask, Vector.getElem_ofFn, covers]
  by_cases hy : y ≤ r
  · cases hs : s[r - y]? with
    | none => simp [hy]
    | some bits =>
      by_cases h8 : c < x + 8
      · simp [hy, h8, getMsbD_place bits x hc]
      · have hout : (BitVec.ofInt 8 bits).getMsbD (c - x) = false := by
          simp [BitVec.getMsbD, show ¬c - x < 8 by omega]
        simp [hy, h8, getMsbD_place bits x hc, hout]
  · simp [hy]

/-- A row of a sprite is the low byte of its integer, the highest bit on the left. -/
theorem getMsbD_ofInt (bits : Int) {i : Nat} (hi : i < 8) :
    (BitVec.ofInt 8 bits).getMsbD i = decide (bits / 2 ^ (7 - i) % 2 = 1) := by
  have hbyte : (BitVec.ofInt 8 bits).toNat = (bits % 256).toNat := BitVec.toNat_ofInt bits
  have hbit : (bits % 256).toNat / 2 ^ (7 - i) % 2 = 1 ↔ bits / 2 ^ (7 - i) % 2 = 1 := by
    obtain ⟨j, hj, hlt⟩ : ∃ j, 7 - i = j ∧ j < 8 := ⟨_, rfl, by omega⟩
    rw [hj]
    interval_cases j <;> simp only [Nat.reducePow, Int.reducePow] <;> omega
  rw [BitVec.getMsbD_eq_getLsbD, decide_eq_true hi, Bool.true_and, ← BitVec.testBit_toNat,
    Nat.testBit_eq_decide_div_mod_eq, hbyte, decide_eq_decide]
  exact hbit

/-- The pixels that a sprite covers are the set bits of its rows. -/
theorem covers_iff (s : Sprite) (x y c r : Nat) :
    s.covers x y c r = true ↔ y ≤ r ∧ x ≤ c ∧ c - x < 8 ∧
      ∃ bits, s[r - y]? = some bits ∧ bits / 2 ^ (7 - (c - x)) % 2 = 1 := by
  rw [covers]
  by_cases hc : c - x < 8
  · cases hs : s[r - y]? with
    | none => simp
    | some bits =>
      simp [getMsbD_ofInt bits hc]
      omega
  · simp [hc]
    omega

end Sprite

namespace Screen

variable {s t : Screen} {c r : Nat}

theorem pixel_eq (s : Screen) (c : Nat) (hr : r < screenHeight) :
    s.pixel c r = s.rows[r].getMsbD c := by
  rw [pixel, Vector.getElem?_eq_getElem hr]

theorem pixel_ofPixels (lit : Nat → Nat → Bool) (hc : c < screenWidth) (hr : r < screenHeight) :
    (ofPixels lit).pixel c r = lit c r := by
  have hat : ((List.range screenWidth).map (lit · r))[c]? = some (lit c r) := by
    rw [List.getElem?_map, List.getElem?_range hc, Option.map_some]
  rw [pixel_eq _ c hr, ofPixels, Vector.getElem_ofFn, BitVec.getMsbD_cast,
    BitVec.getMsbD_ofBoolListBE, List.getD_eq_getElem?_getD, hat, Option.getD_some]

/-- A sprite flips the pixels that it covers. -/
theorem pixel_draw (s : Screen) (x y : Nat) (sprite : Sprite) (hc : c < screenWidth)
    (hr : r < screenHeight) :
    (s.draw x y sprite).pixel c r = (s.pixel c r ^^ sprite.covers x y c r) := by
  rw [pixel_eq _ c hr, pixel_eq _ c hr, draw, Vector.getElem_zipWith, BitVec.getMsbD_xor,
    Sprite.getMsbD_mask sprite x y hc hr]

theorem ne_zero_iff_exists_getMsbD {w : Nat} (v : BitVec w) :
    v ≠ 0 ↔ ∃ c < w, v.getMsbD c = true := by
  constructor
  · intro h
    by_contra hdark
    refine h (BitVec.eq_of_getMsbD_eq fun c hc => ?_)
    simpa using fun hlit => hdark ⟨c, hc, hlit⟩
  · rintro ⟨c, -, hlit⟩ rfl
    simp at hlit

/-- A sprite collides if one of the pixels that it covers is lit. -/
theorem collides_iff (s : Screen) (x y : Nat) (sprite : Sprite) :
    s.collides x y sprite = true ↔ ∃ c < screenWidth, ∃ r < screenHeight,
      s.pixel c r = true ∧ sprite.covers x y c r = true := by
  have hrow : ∀ r (hr : r < screenHeight), s.rows[r] &&& (sprite.mask x y)[r] ≠ 0 ↔
      ∃ c < screenWidth, s.pixel c r = true ∧ sprite.covers x y c r = true := by
    intro r hr
    rw [ne_zero_iff_exists_getMsbD]
    refine exists_congr fun c => and_congr_right fun hc => ?_
    rw [BitVec.getMsbD_and, Bool.and_eq_true, ← pixel_eq s c hr,
      Sprite.getMsbD_mask sprite x y hc hr]
  simp only [collides, Vector.any_eq_true, Vector.getElem_zipWith, decide_eq_true_eq, hrow]
  constructor
  · rintro ⟨r, hr, c, hc, h⟩
    exact ⟨c, hc, r, hr, h⟩
  · rintro ⟨c, hc, r, hr, h⟩
    exact ⟨r, hr, c, hc, h⟩

/-- Screens with the same pixels are the same. -/
theorem ext_pixel (h : ∀ c < screenWidth, ∀ r < screenHeight, s.pixel c r = t.pixel c r) :
    s = t := by
  have hrows : s.rows = t.rows := by
    refine Vector.ext fun r hr => BitVec.eq_of_getMsbD_eq fun c hc => ?_
    rw [← pixel_eq s c hr, ← pixel_eq t c hr]
    exact h c hc r hr
  cases s
  cases t
  exact congrArg _ hrows

/-- The rows of a screen, pixel by pixel. -/
theorem grid_eq (s : Screen) :
    s.grid = (List.range screenHeight).map fun r =>
      (List.range screenWidth).map fun c => s.pixel c r := by
  have hrows : s.rows.toList = (List.range screenHeight).map fun r => s.rows[r]?.getD 0 := by
    refine List.ext_getElem (by simp) fun r hr hr' => ?_
    have hlt : r < screenHeight := by simpa using hr
    simp [hlt]
  rw [grid, hrows, List.map_map]
  refine List.map_congr_left fun r hr => List.map_congr_left fun c _ => ?_
  have hlt := List.mem_range.mp hr
  rw [pixel_eq s c hlt]
  simp [hlt]

/-- Drawing a sprite once more takes it away. -/
theorem draw_draw (s : Screen) (x y : Nat) (sprite : Sprite) :
    (s.draw x y sprite).draw x y sprite = s :=
  ext_pixel fun c hc r hr => by
    rw [pixel_draw _ x y sprite hc hr, pixel_draw s x y sprite hc hr, Bool.xor_assoc,
      Bool.xor_self, Bool.xor_false]

/-- Of the two times one collides, unless the sprite covers nothing at all. A pixel that it covers
is lit before the first or before the second. -/
theorem collides_neither_iff (s : Screen) (x y : Nat) (sprite : Sprite) :
    s.collides x y sprite = false ∧ (s.draw x y sprite).collides x y sprite = false ↔
      ∀ c < screenWidth, ∀ r < screenHeight, sprite.covers x y c r = false := by
  simp only [Bool.eq_false_iff, ne_eq, collides_iff]
  constructor
  · rintro ⟨hfirst, hsecond⟩ c hc r hr hcovered
    have hdark : s.pixel c r = false :=
      Bool.eq_false_iff.mpr fun hlit => hfirst ⟨c, hc, r, hr, hlit, hcovered⟩
    refine hsecond ⟨c, hc, r, hr, ?_, hcovered⟩
    rw [pixel_draw s x y sprite hc hr, hdark, hcovered]
    rfl
  · intro hnone
    constructor <;> rintro ⟨c, hc, r, hr, -, hcovered⟩ <;> exact hnone c hc r hr hcovered

end Screen

end Chip8
