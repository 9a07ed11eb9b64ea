import Chip8.Proofs.Except
import Chip8.Proofs.Machine.Bare
import Chip8.Proofs.Screen
import Chip8.Window.Session

/-!
# Painted canvases

A screen is painted pixel by pixel, by two loops one inside the other. Which pixels a loop paints is
put together from what its steps paint: `Covers` says of a step that it paints the pixels of an
area, each in its colour, and that it leaves the others as they are. It is closed under doing one
step after the other, as long as all of them agree on the colours.

Of the window system nothing is known but its laws, and that the two colours can be painted.

## Main definitions

* `Dependable` — a window system on which two colours can be painted
* `Covers` — what a step paints
* `Canvas.Shows` — a canvas that shows a screen

## Main results

* `Covers.forM` — what a loop paints
* `Canvas.Shows.present` — a canvas after a screen was painted on it
* `Canvas.Shows.getAt_eq_iff` — the pixels that are seen in the foreground colour
-/

namespace Chip8

namespace Window

open WindowSystem

theorem zipIdx_map_range {α : Type} (f : Nat → α) (n : Nat) :
    ((List.range n).map f).zipIdx = (List.range n).map fun i => (f i, i) := by
  refine List.ext_getElem (by simp) fun i hi hi' => ?_
  simp

/-- A step that succeeds, and then another one that is done whatever comes of the first. -/
theorem tryFinally_eq_ok {ε σ α β : Type} {p : EStateM ε σ α} {q : EStateM ε σ β} {s₁ s₂ s₃ : σ}
    {a : α} {b : β} (hp : p s₁ = .ok a s₂) (hq : q s₂ = .ok b s₃) :
    tryFinally p q s₁ = .ok a s₃ := by
  simp only [tryFinally, tryFinally', Functor.map, EStateM.map, hp, hq]

variable [WindowSystem]

/-- A window system that keeps to its laws, and on which two colours can be painted. -/
structure Dependable (foreground background : Colour) : Prop where
  lawful : Lawful
  lock : ∀ b, ∃ b', WindowSystem.lock b = .ok () b'
  unlock : ∀ b, ∃ b', WindowSystem.unlock b = .ok () b'
  foreground : Paints foreground
  background : Paints background

/-! ### Steps that paint -/

/-- A step that paints all pixels of an area, each in the colour for it, and leaves all others as
they are. -/
def Covers (p : EStateM DeviceFailure Surface Unit) (area : Nat → Nat → Prop)
    (colour : Nat → Nat → Colour) : Prop :=
  ∀ b, size b = (screenWidth, screenHeight) →
    ∃ b', p b = .ok () b' ∧ size b' = (screenWidth, screenHeight) ∧
      ∀ x < screenWidth, ∀ y < screenHeight,
        (area x y → getAt x y b' = (colour x y).take 3) ∧
        (¬area x y → getAt x y b' = getAt x y b)

variable {foreground background : Colour} {colour : Nat → Nat → Colour}

theorem covers_setAt (hlawful : Lawful) (colour : Nat → Nat → Colour) {x y : Nat}
    (hx : x < screenWidth) (hy : y < screenHeight) (hpaints : Paints (colour x y)) :
    Covers (setAt x y (colour x y)) (fun x' y' => x' = x ∧ y' = y) colour := by
  intro b hb
  have hx' : x < (size b).1 := by rwa [hb]
  have hy' : y < (size b).2 := by rwa [hb]
  obtain ⟨b', hset⟩ := hpaints b x hx' y hy'
  obtain ⟨hsize, hget⟩ := hlawful.setAt hx' hy' hset
  rw [hb] at hsize hget
  refine ⟨b', hset, hsize, fun x' hx' y' hy' => ⟨fun ha => ?_, fun ha => ?_⟩⟩
  · rw [hget x' hx' y' hy', if_pos ha, ha.1, ha.2]
  · rw [hget x' hx' y' hy', if_neg ha]

/-- What a loop paints is what its steps paint. -/
theorem Covers.forM {ι : Type} {l : List ι} {p : ι → EStateM DeviceFailure Surface Unit}
    {area : ι → Nat → Nat → Prop} (h : ∀ i ∈ l, Covers (p i) (area i) colour) :
    Covers (forM l p) (fun x y => ∃ i ∈ l, area i x y) colour := by
  induction l with
  | nil =>
    intro b hb
    refine ⟨b, rfl, hb, fun x _ y _ => ⟨?_, fun _ => rfl⟩⟩
    rintro ⟨i, hi, -⟩
    cases hi
  | cons i l ih =>
    intro b hb
    obtain ⟨b₁, hp, hb₁, hfirst⟩ := h i List.mem_cons_self b hb
    obtain ⟨b₂, hl, hb₂, hrest⟩ := ih (fun j hj => h j (List.mem_cons_of_mem i hj)) b₁ hb₁
    refine ⟨b₂, ?_, hb₂, fun x hx y hy => ?_⟩
    · rw [List.forM_cons]
      change EStateM.bind (p i) (fun _ => _) b = _
      rw [EStateM.bind, hp]
      exact hl
    · obtain ⟨hpainted, hkept⟩ := hfirst x hx y hy
      obtain ⟨hpainted', hkept'⟩ := hrest x hx y hy
      -- A later step goes over whatever an earlier one has left.
      by_cases hlater : ∃ j ∈ l, area j x y
      · refine ⟨fun _ => hpainted' hlater, fun hnone => absurd ?_ hnone⟩
        obtain ⟨j, hj, ha⟩ := hlater
        exact ⟨j, List.mem_cons_of_mem i hj, ha⟩
      · rw [hkept' hlater]
        refine ⟨?_, fun hnone => hkept fun ha => hnone ⟨i, List.mem_cons_self, ha⟩⟩
        rintro ⟨j, hj, ha⟩
        obtain rfl | hj := List.mem_cons.mp hj
        · exact hpainted ha
        · exact absurd ⟨j, hj, ha⟩ hlater

/-! ### A whole screen -/

/-- All pixels of a screen are painted, each in its colour. -/
theorem covers_grid (hsystem : Dependable foreground background) (s : Screen) :
    Covers
      (forM s.grid.zipIdx fun (row, y) => forM row.zipIdx fun (lit, x) =>
        setAt x y (if lit then foreground else background))
      (fun x y => ∃ y' ∈ List.range screenHeight, ∃ x' ∈ List.range screenWidth, x = x' ∧ y = y')
      (fun x y => if s.pixel x y then foreground else background) := by
  rw [s.grid_eq, zipIdx_map_range, List.forM_map]
  refine Covers.forM fun y hy => ?_
  dsimp only
  rw [zipIdx_map_range, List.forM_map]
  refine Covers.forM fun x hx => ?_
  refine covers_setAt hsystem.lawful
    (fun x y => if s.pixel x y then foreground else background) (List.mem_range.mp hx)
    (List.mem_range.mp hy) ?_
  dsimp only
  split
  · exact hsystem.foreground
  · exact hsystem.background

theorem exists_paint (hsystem : Dependable foreground background) (s : Screen) {b : Surface}
    (hb : size b = (screenWidth, screenHeight)) :
    ∃ b', paint foreground background s.grid b = .ok () b' ∧
      size b' = (screenWidth, screenHeight) ∧
      ∀ x < screenWidth, ∀ y < screenHeight,
        getAt x y b' = (if s.pixel x y then foreground else background).take 3 := by
  obtain ⟨b₁, hlock⟩ := hsystem.lock b
  have hb₁ := (hsystem.lawful.lock hlock).1.trans hb
  obtain ⟨b₂, hgrid, hb₂, hpainted⟩ := covers_grid hsystem s b₁ hb₁
  obtain ⟨b₃, hunlock⟩ := hsystem.unlock b₂
  obtain ⟨hb₃, hkept⟩ := hsystem.lawful.unlock hunlock
  rw [hb₂] at hb₃ hkept
  refine ⟨b₃, ?_, hb₃, fun x hx y hy => ?_⟩
  · rw [paint]
    change EStateM.bind lock (fun _ => tryFinally _ unlock) b = _
    rw [EStateM.bind, hlock]
    exact tryFinally_eq_ok hgrid hunlock
  · rw [hkept x hx y hy]
    exact (hpainted x hx y hy).1 ⟨y, List.mem_range.mpr hy, x, List.mem_range.mpr hx, rfl, rfl⟩

/-! ### Canvases -/

namespace Canvas

/-- A canvas of two colours that shows a screen. -/
structure Shows (c : Canvas) (foreground background : Colour) (s : Screen) : Prop where
  foreground_eq : c.foreground = foreground
  background_eq : c.background = background
  size_eq : size c.backbuffer = (screenWidth, screenHeight)
  getAt_eq : ∀ x < screenWidth, ∀ y < screenHeight,
    getAt x y c.backbuffer = (if s.pixel x y then foreground else background).take 3

variable {c : Canvas} {s : Screen}

/-- A screen that is presented is shown. -/
theorem Shows.present (hsystem : Dependable foreground background)
    (h : c.Shows foreground background s) (s' : Screen) :
    ∃ c', Display.present s' c = .well c' ∧ c'.Shows foreground background s' := by
  obtain ⟨b, hpaint, hb, hpainted⟩ := exists_paint hsystem s' h.size_eq
  refine ⟨{ c with backbuffer := b }, ?_, h.foreground_eq, h.background_eq, hb, hpainted⟩
  change draw s' c = _
  rw [draw, h.foreground_eq, h.background_eq, hpaint]

theorem Shows.steady (hsystem : Dependable foreground background)
    (h : c.Shows foreground background s) : Steady c := by
  refine steady_of_kept (P := fun c => ∃ s, Shows c foreground background s) ?_ ⟨s, h⟩
  rintro c ⟨s, h⟩ s'
  obtain ⟨c', hpresent, hc'⟩ := h.present hsystem s'
  rw [hpresent]
  exact ⟨rfl, s', hc'⟩

section Distinct

variable (h : c.Shows foreground background s) (hdistinct : foreground.take 3 ≠ background.take 3)

include h hdistinct

/-- A pixel is seen in the foreground colour exactly if it is lit, if the colours can be told
apart. -/
theorem Shows.getAt_eq_iff {x y : Nat} (hx : x < screenWidth) (hy : y < screenHeight) :
    getAt x y c.backbuffer = foreground.take 3 ↔ s.pixel x y = true := by
  rw [h.getAt_eq x hx y hy]
  cases s.pixel x y with
  | true => exact iff_of_true rfl rfl
  | false => exact iff_of_false hdistinct.symm Bool.false_ne_true

theorem Shows.lit_eq : c.lit = s := by
  refine Screen.ext_pixel fun x hx y hy => ?_
  rw [lit, Screen.pixel_ofPixels _ hx hy, h.foreground_eq, Bool.eq_iff_iff, beq_iff_eq]
  exact h.getAt_eq_iff hdistinct hx hy

end Distinct

end Canvas

/-- A window that is opened shows nothing. -/
theorem shows_openWindow (hlawful : Lawful) {settings : Settings} {size : Int × Int} {c : Canvas}
    (h : settings.openWindow = .ok (size, c)) :
    c.Shows settings.foreground settings.background .blank := by
  rw [Settings.openWindow] at h
  obtain ⟨size', -, h⟩ := bind_eq_ok_iff.mp h
  obtain ⟨b, hfill, h⟩ := bind_eq_ok_iff.mp h
  obtain ⟨rfl, rfl⟩ := Prod.mk.inj (pure_eq_ok_iff.mp h)
  obtain ⟨hb, hfilled⟩ := hlawful.fill (mapError_eq_ok_iff.mp hfill)
  rw [hlawful.newSurface] at hb hfilled
  refine ⟨rfl, rfl, hb, fun x hx y hy => ?_⟩
  rw [hfilled x hx y hy, Screen.pixel_blank]
  rfl

end Window

end Chip8
