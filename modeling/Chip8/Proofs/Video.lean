import Chip8.Video
import Chip8.Proofs.Processor.Effect
import Chip8.Proofs.Screen

/-!
# Drawing sprites

A sprite is drawn by masks, all pixels of the screen at once. One would rather think of it as a walk
over the sprite, bit by bit from the left and row by row from the top, that flips a pixel for every
set bit and notes whether it was lit. The walk leaves a row at the right edge and stops at the
bottom one. Both come to the same. The note is right because no pixel is met twice, so that each of
them is looked at before it is flipped.

What is seen of it from outside is the display, which is handed the screen once, when it is
finished. The screen stays as it is if the display refuses.

## Main definitions

* `Screen.flip` — a screen with one pixel flipped
* `Sprite.walkRow`, `Sprite.walk` — a row of a sprite, and all of it, bit by bit
* `Sprite.Paints` — what painting some pixels comes to

## Main results

* `Sprite.paints_walk` — which pixels are painted in a walk over a sprite
* `Sprite.walk_eq` — a walk draws the sprite
* `Video.sprite_flips_pixels` — drawing a sprite
-/

namespace Chip8

/-! ### Single pixels -/

namespace Screen

/-- The screen with one pixel flipped. -/
def flip (s : Screen) (c r : Nat) : Screen :=
  ⟨s.rows.mapIdx fun r' row =>
    if r' = r then row ^^^ BitVec.twoPow screenWidth (screenWidth - 1 - c) else row⟩

theorem pixel_flip (s : Screen) {c r c' r' : Nat} (hc : c < screenWidth) (hr' : r' < screenHeight) :
    (s.flip c r).pixel c' r' = (s.pixel c' r' ^^ (decide (c' = c) && decide (r' = r))) := by
  have hback : screenWidth - (screenWidth - 1 - c) - 1 = c := by omega
  rw [pixel_eq _ c' hr', pixel_eq _ c' hr', flip, Vector.getElem_mapIdx]
  by_cases h : r' = r
  · have hlow : screenWidth - 1 - c < screenWidth := by omega
    simp [h, BitVec.getMsbD_twoPow, hlow, hback]
  · simp [h]

end Screen

namespace Sprite

/-! ### Walks -/

/-- A screen, and whether a lit pixel has been painted on it. -/
abbrev Painting := Screen × Bool

/-- Paints the pixel at column `c`, row `r`. -/
def paint (c r : Nat) (p : Painting) : Painting :=
  (p.1.flip c r, p.2 || p.1.pixel c r)

/-- The last `k` bits of a row, from the left. -/
def walkRow (bits : Int) (x r : Nat) : Nat → Painting → Painting
  | 0, p => p
  | k + 1, p =>
    if screenWidth ≤ x + (7 - k) then p
    else walkRow bits x r k (if bits / 2 ^ k % 2 = 1 then paint (x + (7 - k)) r p else p)

/-- The rows of a sprite, from the top. -/
def walk (x : Nat) : Nat → Sprite → Painting → Painting
  | _, [], p => p
  | y, bits :: rest, p =>
    if screenHeight ≤ y then p else walk x (y + 1) rest (walkRow bits x y 8 p)

/-! ### What a walk paints -/

/-- One painting comes of another by painting some pixels, each of them once. -/
structure Paints (painted : Nat → Nat → Prop) (p q : Painting) : Prop where
  pixel : ∀ c < screenWidth, ∀ r < screenHeight,
    (q.1.pixel c r = true ↔ (p.1.pixel c r = true ↔ ¬painted c r))
  hit : q.2 = true ↔ p.2 = true ∨
    ∃ c < screenWidth, ∃ r < screenHeight, p.1.pixel c r = true ∧ painted c r

variable {painted first second : Nat → Nat → Prop} {p q t : Painting} {x y c r k : Nat}

theorem paints_nothing (h : ∀ c < screenWidth, ∀ r < screenHeight, ¬painted c r) :
    Paints painted p p where
  pixel c hc r hr := by simp [h c hc r hr]
  hit := by
    constructor
    · exact .inl
    · rintro (hp | ⟨c, hc, r, hr, -, hpainted⟩)
      · exact hp
      · exact absurd hpainted (h c hc r hr)

theorem xor_decide_iff (a : Bool) (P : Prop) [Decidable P] :
    (a ^^ decide P) = true ↔ (a = true ↔ ¬P) := by
  cases a <;> simp

theorem paints_paint (hc : c < screenWidth) (hr : r < screenHeight) :
    Paints (fun c' r' => c' = c ∧ r' = r) p (paint c r p) where
  pixel c' _ r' hr' := by
    have hflip : (paint c r p).1.pixel c' r' =
        (p.1.pixel c' r' ^^ (decide (c' = c) && decide (r' = r))) := Screen.pixel_flip p.1 hc hr'
    rw [hflip, ← Bool.decide_and, xor_decide_iff]
  hit := by
    rw [paint, Bool.or_eq_true]
    refine or_congr_right ⟨fun hlit => ⟨c, hc, r, hr, hlit, rfl, rfl⟩, ?_⟩
    rintro ⟨_, -, _, -, hlit, rfl, rfl⟩
    exact hlit

/-- Other pixels can be painted afterwards. They are lit as they were before. -/
theorem Paints.trans (h₁ : Paints first p q) (h₂ : Paints second q t)
    (hboth : ∀ c < screenWidth, ∀ r < screenHeight, (painted c r ↔ first c r ∨ second c r))
    (hother : ∀ c < screenWidth, ∀ r < screenHeight, first c r → ¬second c r) :
    Paints painted p t where
  pixel c hc r hr := by
    have hd := hother c hc r hr
    rw [h₂.pixel c hc r hr, h₁.pixel c hc r hr, hboth c hc r hr]
    by_cases hfirst : first c r <;> by_cases hsecond : second c r <;> simp_all
  hit := by
    have hlit : ∀ c < screenWidth, ∀ r < screenHeight, second c r →
        (q.1.pixel c r = true ↔ p.1.pixel c r = true) := by
      intro c hc r hr hsecond
      have hfirst : ¬first c r := fun h => hother c hc r hr h hsecond
      simp [h₁.pixel c hc r hr, hfirst]
    rw [h₂.hit, h₁.hit, or_assoc]
    refine or_congr_right ?_
    constructor
    · rintro (⟨c, hc, r, hr, hp, h⟩ | ⟨c, hc, r, hr, hq, h⟩)
      · exact ⟨c, hc, r, hr, hp, (hboth c hc r hr).mpr (.inl h)⟩
      · exact ⟨c, hc, r, hr, (hlit c hc r hr h).mp hq, (hboth c hc r hr).mpr (.inr h)⟩
    · rintro ⟨c, hc, r, hr, hp, h⟩
      obtain h | h := (hboth c hc r hr).mp h
      · exact .inl ⟨c, hc, r, hr, hp, h⟩
      · exact .inr ⟨c, hc, r, hr, (hlit c hc r hr h).mpr hp, h⟩

/-- The columns on which a set bit falls, of the last `k` bits of a row. -/
def RowCovers (bits : Int) (x k c : Nat) : Prop :=
  ∃ j < k, c = x + (7 - j) ∧ bits / 2 ^ j % 2 = 1

theorem rowCovers_succ {bits : Int} :
    RowCovers bits x (k + 1) c ↔
      (c = x + (7 - k) ∧ bits / 2 ^ k % 2 = 1) ∨ RowCovers bits x k c :=
  Nat.exists_lt_succ_right.trans or_comm

theorem rowCovers_iff {bits : Int} :
    RowCovers bits x 8 c ↔ x ≤ c ∧ c - x < 8 ∧ bits / 2 ^ (7 - (c - x)) % 2 = 1 := by
  constructor
  · rintro ⟨j, hj, rfl, hset⟩
    have hback : 7 - (x + (7 - j) - x) = j := by omega
    rw [hback]
    exact ⟨Nat.le_add_right x _, by omega, hset⟩
  · rintro ⟨hx, hc, hset⟩
    exact ⟨7 - (c - x), by omega, by omega, hset⟩

theorem paints_walkRow (bits : Int) (x : Nat) (hr : r < screenHeight) (hk : k ≤ 8) (p : Painting) :
    Paints (fun c r' => r' = r ∧ RowCovers bits x k c) p (walkRow bits x r k p) := by
  induction k generalizing p with
  | zero => exact paints_nothing fun c _ r' _ => by simp [RowCovers]
  | succ k ih =>
    rw [walkRow]
    split
    · -- This column is beyond the right edge, and so are those after it.
      refine paints_nothing fun c hc r' _ => ?_
      rintro ⟨-, j, hj, rfl, -⟩
      omega
    · next hx =>
      have hrest := ih (Nat.le_of_succ_le hk)
      by_cases hset : bits / 2 ^ k % 2 = 1
      · rw [if_pos hset]
        refine (paints_paint (Nat.lt_of_not_le hx) hr).trans (hrest _) (fun c _ r' _ => ?_) ?_
        · simp only [rowCovers_succ, hset, and_true]
          tauto
        · rintro _ - _ - ⟨rfl, rfl⟩ ⟨-, j, hj, hcolumn, -⟩
          omega
      · rw [if_neg hset]
        simpa only [rowCovers_succ, hset, and_false, false_or] using hrest p

/-- A pixel is covered by the first row of a sprite or by those below. -/
theorem covers_cons (bits : Int) (rest : Sprite) (x y c r : Nat) :
    covers (bits :: rest) x y c r = true ↔
      (r = y ∧ RowCovers bits x 8 c) ∨ covers rest x (y + 1) c r = true := by
  rw [covers_iff, covers_iff, rowCovers_iff]
  obtain hlt | rfl | hlt := Nat.lt_trichotomy r y
  · simp only [Nat.not_le.mpr hlt, Nat.ne_of_lt hlt, Nat.not_le.mpr (Nat.lt_succ_of_lt hlt),
      false_and, or_self]
  · simp
  · have hrow : r - y = r - (y + 1) + 1 := by omega
    have hle : y + 1 ≤ r := hlt
    simp [hrow, hle, Nat.le_of_lt hlt, Nat.ne_of_gt hlt]

/-- A walk over a sprite paints the pixels that it covers. -/
theorem paints_walk (x : Nat) (s : Sprite) (y : Nat) (p : Painting) :
    Paints (fun c r => s.covers x y c r = true) p (walk x y s p) := by
  induction s generalizing y p with
  | nil => exact paints_nothing fun c _ r _ => by simp [covers]
  | cons bits rest ih =>
    rw [walk]
    split
    · next hy =>
      -- This row is below the bottom, and so are those after it.
      refine paints_nothing fun c _ r hr hcovered => ?_
      have := ((covers_iff _ x y c r).mp hcovered).1
      omega
    · next hy =>
      refine (paints_walkRow bits x (Nat.lt_of_not_le hy) (Nat.le_refl 8) p).trans (ih _ _)
        (fun c _ r _ => covers_cons bits rest x y c r) ?_
      rintro c - _ - ⟨rfl, -⟩ hcovered
      exact Nat.not_succ_le_self _ ((covers_iff rest x _ c _).mp hcovered).1

/-- A walk draws the sprite, and notes whether it collides. -/
theorem walk_eq (s : Screen) (x y : Nat) (sprite : Sprite) :
    walk x y sprite (s, false) = (s.draw x y sprite, s.collides x y sprite) := by
  have h := paints_walk x sprite y (s, false)
  refine Prod.ext (Screen.ext_pixel fun c hc r hr => ?_) ?_
  · rw [Bool.eq_iff_iff, h.pixel c hc r hr, Screen.pixel_draw s x y sprite hc hr]
    cases s.pixel c r <;> simp
  · rw [Bool.eq_iff_iff, h.hit, Screen.collides_iff]
    simp

end Sprite

/-! ### Drawing -/

namespace Video

variable {δ : Type} [Display δ]

variable {v : Video δ} {s : Screen} {x y : Nat} {sprite : Sprite} {reason : DeviceFailure}

/-- A screen that is presented is shown, whether the display fails or not. -/
theorem replace_ok (h : (Display.present s v.display).failure = none) :
    Video.replace s v = .ok () ⟨s, (Display.present s v.display).device⟩ := by
  simp only [Video.replace, h]

theorem replace_error (h : (Display.present s v.display).failure = some reason) :
    Video.replace s v = .error (.device reason) ⟨s, (Display.present s v.display).device⟩ := by
  simp only [Video.replace, h]

theorem draw_ok (h : (Display.present (v.screen.draw x y sprite) v.display).failure = none) :
    Video.draw x y sprite v = .ok (v.screen.collides x y sprite) ⟨v.screen.draw x y sprite,
      (Display.present (v.screen.draw x y sprite) v.display).device⟩ := by
  have hv : (get : Effect δ _) v = .ok v v := rfl
  rw [Video.draw, bind_ok hv]
  exact bind_ok (replace_ok h)

theorem draw_error
    (h : (Display.present (v.screen.draw x y sprite) v.display).failure = some reason) :
    Video.draw x y sprite v = .error (.device reason) ⟨v.screen.draw x y sprite,
      (Display.present (v.screen.draw x y sprite) v.display).device⟩ := by
  have hv : (get : Effect δ _) v = .ok v v := rfl
  rw [Video.draw, bind_ok hv]
  exact bind_error (replace_error h)

/-- Drawing a sprite. A walk over it bit by bit comes to the same: a pixel is flipped if a set bit
of the sprite falls on it, and left alone otherwise. The result tells whether one of the flipped
pixels was lit. The display is used once, with the screen as it is then, and the screen stays even
if the display fails. A sprite that is drawn twice is gone again. It collides neither time only if
it is nowhere on the screen. -/
theorem sprite_flips_pixels (v : Video δ) (x y : Nat) (sprite : Sprite) :
    Video.draw x y sprite v =
      (let used := Display.present (v.screen.draw x y sprite) v.display
      match used.failure with
      | none => .ok (v.screen.collides x y sprite) ⟨v.screen.draw x y sprite, used.device⟩
      | some reason => .error (.device reason) ⟨v.screen.draw x y sprite, used.device⟩) ∧
    Sprite.walk x y sprite (v.screen, false) =
      (v.screen.draw x y sprite, v.screen.collides x y sprite) ∧
    (∀ c r, sprite.covers x y c r = true ↔ y ≤ r ∧ x ≤ c ∧ c - x < 8 ∧
      ∃ bits, sprite[r - y]? = some bits ∧ bits / 2 ^ (7 - (c - x)) % 2 = 1) ∧
    (∀ c < screenWidth, ∀ r < screenHeight, (v.screen.draw x y sprite).pixel c r =
      (v.screen.pixel c r ^^ sprite.covers x y c r)) ∧
    (v.screen.collides x y sprite = true ↔ ∃ c < screenWidth, ∃ r < screenHeight,
      v.screen.pixel c r = true ∧ sprite.covers x y c r = true) ∧
    (v.screen.draw x y sprite).draw x y sprite = v.screen ∧
    (v.screen.collides x y sprite = false ∧
        (v.screen.draw x y sprite).collides x y sprite = false ↔
      ∀ c < screenWidth, ∀ r < screenHeight, sprite.covers x y c r = false) := by
  refine ⟨?_, Sprite.walk_eq v.screen x y sprite, sprite.covers_iff x y,
    fun c hc r hr => v.screen.pixel_draw x y sprite hc hr,
    v.screen.collides_iff x y sprite, v.screen.draw_draw x y sprite,
    v.screen.collides_neither_iff x y sprite⟩
  cases h : (Display.present (v.screen.draw x y sprite) v.display).failure with
  | none => exact (draw_ok h).trans (by simp only [h])
  | some reason => exact (draw_error h).trans (by simp only [h])

end Video

end Chip8
