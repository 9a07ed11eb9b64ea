import Chip8.Proofs.Window.Canvas
import Chip8.Window.Raster

/-!
# Windows in memory keep to the laws

## Main results

* `dependable_raster` — any two colours can be painted in memory
-/

namespace Chip8

namespace Window

namespace Raster

variable {r r' : Raster} {c : Colour} {x y x' y' : Nat}

/-! ### Places of pixels -/

theorem index_div {w x : Nat} (hx : x < w) (y : Nat) : (y * w + x) / w = y := by
  rw [Nat.mul_comm, Nat.mul_add_div (Nat.zero_lt_of_lt hx), Nat.div_eq_of_lt hx, Nat.add_zero]

/-- Two pixels of a surface are in the same place only if they are the same. -/
theorem index_inj {w : Nat} (hx : x < w) (hx' : x' < w) :
    y * w + x = y' * w + x' ↔ x' = x ∧ y' = y := by
  constructor
  · intro h
    obtain rfl : y' = y := by rw [← index_div hx' y', ← h, index_div hx y]
    exact ⟨(Nat.add_left_cancel h).symm, rfl⟩
  · rintro ⟨rfl, rfl⟩
    rfl

theorem index_lt {w h : Nat} (hx : x < w) (hy : y < h) : y * w + x < w * h := by
  calc y * w + x < y * w + w := Nat.add_lt_add_left hx _
    _ = w * (y + 1) := by rw [Nat.mul_comm, Nat.mul_succ]
    _ ≤ w * h := Nat.mul_le_mul_left w hy

/-! ### What is read -/

theorem get_filled (h : r.Holds x y) (c : Colour) : (r.filled c).get x y = c.take 3 := by
  have hi := index_lt h.1 h.2
  rw [get, filled, Vector.getElem?_replicate, if_pos hi]
  rfl

theorem set_of_holds (h : r.Holds x y) (c : Colour) :
    r.set x y c = { r with pixels := r.pixels.setIfInBounds (y * r.width + x) (c.take 3) } :=
  if_pos h

theorem size_set (r : Raster) (x y : Nat) (c : Colour) :
    (r.set x y c).width = r.width ∧ (r.set x y c).height = r.height := by
  rw [set]
  split <;> exact ⟨rfl, rfl⟩

theorem get_set (h : r.Holds x y) (h' : r.Holds x' y') (c : Colour) :
    (r.set x y c).get x' y' = if x' = x ∧ y' = y then c.take 3 else r.get x' y' := by
  have hi := index_lt h.1 h.2
  rw [set_of_holds h]
  simp only [get, Vector.getElem?_setIfInBounds, index_inj h.1 h'.1, if_pos hi]
  split <;> rfl

theorem eq_of_painting {f : Raster → Raster} (h : painting c f r = .ok () r') : f r = r' := by
  rw [painting] at h
  split at h
  · exact (EStateM.Result.ok.inj h).2
  · contradiction

end Raster

variable {foreground background : Colour}

/-- What is painted in memory is kept there. -/
theorem lawful_raster : WindowSystem.Lawful where
  newSurface _ _ := rfl
  fill := by
    intro c r r' h
    change (if isColour c = true then Except.ok (r.filled c) else _) = _ at h
    split at h
    · obtain rfl := Except.ok.inj h
      exact ⟨rfl, fun x hx y hy => Raster.get_filled ⟨hx, hy⟩ c⟩
    · contradiction
  lock := by
    rintro r _ ⟨⟩
    exact ⟨rfl, fun _ _ _ _ => rfl⟩
  unlock := by
    rintro r _ ⟨⟩
    exact ⟨rfl, fun _ _ _ _ => rfl⟩
  setAt := by
    intro x y c r r' hx hy h
    obtain rfl := Raster.eq_of_painting h
    obtain ⟨hwidth, hheight⟩ := Raster.size_set r x y c
    exact ⟨Prod.ext hwidth hheight, fun x' hx' y' hy' => Raster.get_set ⟨hx, hy⟩ ⟨hx', hy'⟩ c⟩

theorem paints_raster {c : Colour} (h : isColour c = true) : WindowSystem.Paints c :=
  fun _ _ _ _ _ => ⟨_, if_pos h⟩

/-- Any two colours can be painted in memory. -/
theorem dependable_raster (hforeground : isColour foreground = true)
    (hbackground : isColour background = true) : Dependable foreground background where
  lawful := lawful_raster
  lock r := ⟨r, rfl⟩
  unlock r := ⟨r, rfl⟩
  foreground := paints_raster hforeground
  background := paints_raster hbackground

end Window

end Chip8
