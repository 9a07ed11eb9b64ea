import Chip8.Proofs.Screen
import Chip8.Workbench.Page
import Mathlib.Algebra.BigOperators.Ring.List
import Mathlib.Tactic.Ring

/-!
# The picture on a page

A picture is made by stretching: the rows first, and then what is in each of them. Here it is said
what came of it at a given place. The pixel that is shown there is found by division, since the
place lies in a square of `pictureScale` by `pictureScale` that begins at a multiple of it.

## Main results

* `picture_eq` — a picture, place by place
* `screen_eq_of_image` — the screen can be found in its picture
* `totalBrightness_eq` — every lit pixel makes a picture brighter by the same amount
-/

namespace Chip8

/-- The number of lit pixels, row by row. -/
def Screen.litCount (s : Screen) : Nat :=
  ((List.range screenHeight).map fun r => (List.range screenWidth).countP (s.pixel · r)).sum

theorem Screen.length_lit (s : Screen) : s.lit.length = s.litCount := by
  simp only [lit, litCount, List.length_flatMap, List.length_map, List.countP_eq_length_filter]

namespace Workbench

variable {α : Type}

/-! ### Stretched lists -/

theorem stretched_append (l l' : List α) : stretched (l ++ l') = stretched l ++ stretched l' :=
  List.flatMap_append

/-- A member of a stretched list is found by division. -/
theorem stretched_map_range (f : Nat → α) (n : Nat) :
    stretched ((List.range n).map f) =
      (List.range (n * pictureScale)).map fun i => f (i / pictureScale) := by
  induction n with
  | zero => rfl
  | succ n ih =>
    -- All places of the last piece show the last member.
    have hlast :
        (List.range pictureScale).map (fun i => f ((n * pictureScale + i) / pictureScale)) =
          List.replicate pictureScale (f n) := by
      refine List.eq_replicate_iff.mpr ⟨by simp, fun b hb => ?_⟩
      obtain ⟨i, hi, rfl⟩ := List.mem_map.mp hb
      have hi' : i < 8 := List.mem_range.mp hi
      have hdiv : (n * 8 + i) / 8 = n := by omega
      exact congrArg f hdiv
    rw [List.range_succ, List.map_append, stretched_append, ih, Nat.succ_mul, List.range_add,
      List.map_append, List.map_map, Function.comp_def, hlast]
    simp [stretched]

theorem map_stretched {β : Type} (g : α → β) (l : List α) :
    (stretched l).map g = stretched (l.map g) := by
  simp [stretched, List.map_flatMap, List.flatMap_map]

theorem sum_stretched (l : List Nat) : (stretched l).sum = pictureScale * l.sum := by
  induction l with
  | nil => rfl
  | cons a l ih =>
    have hcons : stretched (a :: l) = List.replicate pictureScale a ++ stretched l := rfl
    rw [hcons, List.sum_append, List.sum_replicate_nat, ih, List.sum_cons, Nat.mul_add]

/-! ### Pictures -/

/-- A picture, place by place. -/
theorem picture_eq (s : Screen) :
    picture s = (List.range (screenHeight * pictureScale)).map fun y =>
      (List.range (screenWidth * pictureScale)).map fun x =>
        List.replicate 3 (if s.pixel (x / pictureScale) (y / pictureScale) then 255 else 0) := by
  have hbright : ∀ lit : Bool, lit.toNat.toUInt8 * 255 = if lit then 255 else 0 := by decide
  simp only [picture, s.grid_eq, List.map_map, Function.comp_def, hbright, stretched_map_range]

/-- Whether a picture has a height, a width and a number of colours. -/
def HasShape (shape : List Nat) (p : Picture) : Prop :=
  ∃ height width colours, shape = [height, width, colours] ∧ p.length = height ∧
    ∀ row ∈ p, row.length = width ∧ ∀ pixel ∈ row, pixel.length = colours

theorem hasShape_picture (s : Screen) : HasShape pictureShape (picture s) := by
  refine ⟨_, _, _, rfl, ?_, fun row hrow => ?_⟩
  · rw [picture_eq, List.length_map, List.length_range]
  · rw [picture_eq] at hrow
    obtain ⟨y, -, rfl⟩ := List.mem_map.mp hrow
    refine ⟨by rw [List.length_map, List.length_range], fun pixel hpixel => ?_⟩
    obtain ⟨x, -, rfl⟩ := List.mem_map.mp hpixel
    exact List.length_replicate

/-- The screen can be found in its picture. -/
theorem screen_eq_of_image {p : Page} {s : Screen} (h : p.image = picture s) : p.screen = s := by
  refine Screen.ext_pixel fun c hc r hr => ?_
  have hrow : r * pictureScale < screenHeight * pictureScale :=
    Nat.mul_lt_mul_of_pos_right hr (by decide)
  have hcolumn : c * pictureScale < screenWidth * pictureScale :=
    Nat.mul_lt_mul_of_pos_right hc (by decide)
  have hback : ∀ n, n * pictureScale / pictureScale = n := fun n => Nat.mul_div_cancel n (by decide)
  rw [Page.screen, Screen.pixel_ofPixels _ hc hr, h, picture_eq, List.getElem?_map,
    List.getElem?_range hrow, Option.map_some, Option.bind_some, List.getElem?_map,
    List.getElem?_range hcolumn, Option.map_some, Option.any_some, hback, hback]
  cases s.pixel c r <;> decide

theorem sum_row (s : Screen) (r : Nat) :
    ((List.range screenWidth).map fun c => if s.pixel c r then 3 * 255 else 0).sum =
      3 * 255 * (List.range screenWidth).countP (s.pixel · r) := by
  induction List.range screenWidth with
  | nil => rfl
  | cons c l ih =>
    rw [List.map_cons, List.sum_cons, ih, List.countP_cons]
    split <;> omega

/-- Every lit pixel makes a picture brighter by the same amount. -/
theorem totalBrightness_eq (s : Screen) :
    totalBrightness s = 3 * 255 * (8 * 8) * s.litCount := by
  have hpixel : ∀ lit : Bool,
      ((List.replicate 3 (lit.toNat.toUInt8 * 255)).map UInt8.toNat).sum =
        if lit then 3 * 255 else 0 := by decide
  have htotal : ∀ l : List Nat, l.foldr (· + ·) 0 = l.sum := fun _ => List.sum_eq_foldr.symm
  simp only [totalBrightness, htotal, picture, List.map_map, Function.comp_def, map_stretched,
    sum_stretched, hpixel, s.grid_eq, sum_row, List.sum_map_mul_left]
  rw [Screen.litCount, pictureScale]
  ring

end Workbench

end Chip8
