import Chip8.Proofs.Machine.Course
import Chip8.Proofs.Screen
import Mathlib.Data.List.Induction

/-!
# What was presented

The display is handed a screen whenever the screen is cleared or a sprite is drawn, and at no other
time. So the screens that it was handed tell the whole history of the screen, and each of them is
settled by the sprites drawn since the last time the screen was cleared: a pixel is lit if an odd
number of them cover it. Which of them came first makes no difference.

A presentation is told by what was asked for: the two registers with the place, and the bytes of the
sprite as they were in memory when it was drawn. `Leads` collects them along a run of cycles and
resets. Programs may be loaded in between, and keys pressed and let go.

## Main definitions

* `Presentation` — a screen cleared, or a sprite drawn
* `picture` — the screen after some presentations
* `Machine.Leads` — runs, with what they present

## Main results

* `pixel_picture` — a pixel, by the number of sprites that cover it
* `Machine.screen_history` — what a run presents
-/

namespace Chip8

/-! ### Presentations -/

/-- A sprite that was drawn. -/
structure Stamp where
  /-- The register with the column. It wraps around the screen. -/
  x : UInt8
  /-- The register with the row. -/
  y : UInt8
  bytes : List UInt8
  deriving DecidableEq, Repr

namespace Stamp

/-- The first column. -/
def column (s : Stamp) : Nat := s.x.toNat % screenWidth

/-- The first row. -/
def row (s : Stamp) : Nat := s.y.toNat % screenHeight

/-- Whether a sprite covers the pixel at column `c`, row `r`. The bits of a byte are numbered from
the right. -/
def covers (s : Stamp) (c r : Nat) : Bool :=
  s.row ≤ r && s.column ≤ c && c - s.column < 8 &&
    s.bytes[r - s.row]?.any fun b => b.toNat.testBit (7 - (c - s.column))

/-- The sprite as it is drawn on a screen. -/
def sprite (s : Stamp) : Sprite := s.bytes.map fun b => (b.toNat : Int)

theorem covers_sprite (s : Stamp) (c r : Nat) :
    s.sprite.covers s.column s.row c r = s.covers c r := by
  have hbit : ∀ b : UInt8, ∀ k < 8,
      (BitVec.ofInt 8 (b.toNat : Int)).getMsbD k = b.toNat.testBit (7 - k) := by
    intro b k hk
    rw [BitVec.getMsbD, BitVec.ofInt_natCast, decide_eq_true hk, Bool.true_and]
    simp [BitVec.getLsbD]
  rw [Sprite.covers, covers, sprite, List.getElem?_map]
  cases s.bytes[r - s.row]? with
  | none => simp
  | some b =>
    by_cases h8 : c - s.column < 8
    · by_cases hle : s.column ≤ c
      · have hlt : c < s.column + 8 := by omega
        simp only [Option.map_some, Option.any_some, hbit b _ h8, hle, hlt, h8]
        simp
      · simp [hle]
    · simp [h8]
      omega

end Stamp

/-- What a display is told. -/
inductive Presentation where
  /-- The screen was cleared. -/
  | cleared
  /-- A sprite was drawn. -/
  | drawn (s : Stamp)
  deriving DecidableEq, Repr

namespace Presentation

/-- The screen that is presented, made from the one before. -/
def on (s : Screen) : Presentation → Screen
  | cleared => .blank
  | drawn stamp => s.draw stamp.column stamp.row stamp.sprite

/-- The sprites drawn since the screen was last cleared. -/
def sinceCleared (ps : List Presentation) : List Stamp :=
  ps.foldl (fun stamps p =>
    match p with
    | cleared => []
    | drawn s => stamps ++ [s]) []

/-- The screen after some presentations. -/
def picture (ps : List Presentation) : Screen := ps.foldl on .blank

/-- The screens that are presented, one after the other. -/
def pictures (ps : List Presentation) : List Screen :=
  (List.range ps.length).map fun k => picture (ps.take (k + 1))

variable {ps qs : List Presentation} {c r : Nat}

theorem picture_concat (ps : List Presentation) (p : Presentation) :
    picture (ps ++ [p]) = p.on (picture ps) := by
  rw [picture, List.foldl_append]
  rfl

/-- A pixel is lit if an odd number of the sprites cover it that were drawn since the screen was
last cleared. -/
theorem pixel_picture (ps : List Presentation) (hc : c < screenWidth) (hr : r < screenHeight) :
    (picture ps).pixel c r = decide ((sinceCleared ps).countP (·.covers c r) % 2 = 1) := by
  induction ps using List.reverseRecOn with
  | nil => simp [picture, sinceCleared]
  | append_singleton ps p ih =>
    rw [picture_concat, sinceCleared, List.foldl_append]
    cases p with
    | cleared => simp [on]
    | drawn s =>
      have hcount : (sinceCleared ps ++ [s]).countP (·.covers c r) =
          (sinceCleared ps).countP (·.covers c r) + if s.covers c r then 1 else 0 := by
        rw [List.countP_append, List.countP_singleton]
      change ((picture ps).draw s.column s.row s.sprite).pixel c r =
        decide ((sinceCleared ps ++ [s]).countP (·.covers c r) % 2 = 1)
      rw [Screen.pixel_draw _ _ _ _ hc hr, ih, s.covers_sprite, hcount]
      by_cases hs : s.covers c r = true
      · rw [hs, if_pos rfl, Bool.xor_true, ← decide_not, decide_eq_decide]
        omega
      · simp [hs]

/-- The order in which sprites were drawn does not matter. -/
theorem picture_eq_of_perm (h : (sinceCleared ps).Perm (sinceCleared qs)) :
    picture ps = picture qs := by
  refine Screen.ext_pixel fun c hc r hr => ?_
  rw [pixel_picture ps hc hr, pixel_picture qs hc hr, h.countP_eq]

@[simp] theorem length_pictures (ps : List Presentation) : (pictures ps).length = ps.length := by
  simp [pictures]

/-- What is presented later comes after what was presented, and leaves it as it is. -/
theorem pictures_append (ps qs : List Presentation) :
    pictures (ps ++ qs) =
      pictures ps ++ (List.range qs.length).map fun k => picture (ps ++ qs.take (k + 1)) := by
  rw [pictures, pictures, List.length_append, List.range_add, List.map_append, List.map_map]
  congr 1
  · refine List.map_congr_left fun k hk => ?_
    have := List.mem_range.mp hk
    rw [List.take_append_of_le_length (by omega)]
  · refine List.map_congr_left fun k _ => ?_
    simp [Nat.add_assoc, List.take_length_add_append]

theorem pictures_concat (ps : List Presentation) (p : Presentation) :
    pictures (ps ++ [p]) = pictures ps ++ [picture (ps ++ [p])] :=
  pictures_append ps [p]

/-- The last screen that was presented. -/
theorem getLast?_pictures (ps : List Presentation) :
    (pictures ps).getLast?.getD .blank = picture ps := by
  induction ps using List.reverseRecOn with
  | nil => rfl
  | append_singleton ps p _ => rw [pictures_concat, List.getLast?_concat, Option.getD_some]

end Presentation

/-- A display after some screens were presented on it, one after the other. -/
def shownTo {δ : Type} [Display δ] (d : δ) (screens : List Screen) : δ :=
  screens.foldl (fun d s => (Display.present s d).device) d

theorem shownTo_append {δ : Type} [Display δ] (d : δ) (screens later : List Screen) :
    shownTo d (screens ++ later) = shownTo (shownTo d screens) later :=
  List.foldl_append

theorem shownTo_singleton {δ : Type} [Display δ] (d : δ) (s : Screen) :
    shownTo d [s] = (Display.present s d).device := rfl

namespace Machine

open Processor Presentation

variable {κ β δ ρ : Type} {m m' m'' : Machine κ β δ ρ} {ps qs : List Presentation}

/-! ### What a machine presents -/

/-- What the instruction presents, if it presents anything. -/
def presentation? (m : Machine κ β δ ρ) : Option Presentation :=
  match m.instruction? with
  | some .clear => some .cleared
  | some .draw =>
    some (.drawn ⟨m.vx, m.vy, m.cpu.bytesAt m.cpu.index.toNat m.cpu.word.n⟩)
  | _ => none

theorem shown?_eq (m : Machine κ β δ ρ) :
    m.shown? = m.presentation?.map fun p => p.on m.screen := by
  rw [shown?, presentation?]
  cases m.instruction? with
  | none => rfl
  | some i => cases i <;> rfl

/-- A screen that is put up is presented, whether the display fails or not. -/
theorem video_replace [Display δ] (s : Screen) :
    (after (onVideo (Video.replace s) : Action κ β δ ρ Unit) m).video =
      ⟨s, (Display.present s m.display).device⟩ := by
  rw [after]
  cases hu : (Display.present s m.display).failure with
  | some reason => rw [onVideo_error (Video.replace_error (v := m.video) hu)]; rfl
  | none => rw [onVideo_ok (Video.replace_ok (v := m.video) hu)]; rfl

theorem video_reset [Display δ] :
    (after reset m).video = ⟨.blank, (Display.present .blank m.display).device⟩ :=
  video_replace (m := { m with cpu := .powerOn, trace := m.trace.clear }) .blank

theorem video_loadProgram (program : List UInt8) :
    (after (loadProgram program) m).video = m.video := by
  rw [after_loadProgram]
  split <;> rfl

variable [KeyInput κ] [Sounder β] [Display δ] [ByteSource ρ]

/-- A machine after some cycles and resets, with what they present. No cycle fails. A program that
is too long is refused, and changes nothing. -/
inductive Leads : Machine κ β δ ρ → List Presentation → Machine κ β δ ρ → Prop where
  | start (m : Machine κ β δ ρ) : Leads m [] m
  | cycle {m m' m'' : Machine κ β δ ρ} {ps : List Presentation} :
    Leads m ps m' → cycle m' = .ok () m'' → Leads m (ps ++ m'.presentation?.toList) m''
  | reset {m m' : Machine κ β δ ρ} {ps : List Presentation} :
    Leads m ps m' → Leads m (ps ++ [.cleared]) (after reset m')
  | loadProgram {m m' : Machine κ β δ ρ} {ps : List Presentation} (program : List UInt8) :
    Leads m ps m' → Leads m ps (after (loadProgram program) m')
  | keys {m m' : Machine κ β δ ρ} {ps : List Presentation} (keys : κ) :
    Leads m ps m' → Leads m ps (m'.withKeys keys)

theorem Leads.trans (h : Leads m ps m') (h' : Leads m' qs m'') : Leads m (ps ++ qs) m'' := by
  induction h' with
  | start => rwa [List.append_nil]
  | cycle _ he ih => rw [← List.append_assoc]; exact ih.cycle he
  | reset _ ih => rw [← List.append_assoc]; exact ih.reset
  | loadProgram program _ ih => exact ih.loadProgram program
  | keys keys _ ih => exact ih.keys keys

theorem Leads.reachable (hr : Reachable m) (h : Leads m ps m') : Reachable m' := by
  induction h with
  | start => exact hr
  | @cycle m' m'' ps _ he ih =>
    have hafter : after Machine.cycle m' = m'' := by rw [after, he]
    exact hafter ▸ ih.cycle
  | reset _ ih => exact ih.reset
  | loadProgram program _ ih => exact ih.loadProgram program
  | keys keys _ ih => exact ih.keys keys

/-- Screen and display after a completed cycle. -/
theorem video_cycle (h : m.cpu.Intact) (he : cycle m = .ok () m') :
    m'.video =
      match m.presentation? with
      | some p => ⟨p.on m.screen, (Display.present (p.on m.screen) m.display).device⟩
      | none => m.video := by
  obtain ⟨-, rfl⟩ := (cycle_eq_ok_iff h).mp he
  rw [video_completed, videoAfter, shown?_eq]
  cases m.presentation? <;> rfl

/-- A run from a blank screen: the screen is the picture of what was presented, and the display was
handed every picture on the way. -/
theorem Leads.video (h : Leads m ps m') (hr : Reachable m) (hb : m.screen = .blank) :
    m'.video = ⟨picture ps, shownTo m.display (pictures ps)⟩ := by
  induction h with
  | start =>
    change (⟨m.screen, m.display⟩ : Video δ) = ⟨.blank, m.display⟩
    rw [hb]
  | @cycle m' m'' ps h he ih =>
    rw [video_cycle (reachable_intact (h.reachable hr)).1 he]
    cases hp : m'.presentation? with
    | none => rw [Option.toList_none, List.append_nil]; exact ih
    | some p =>
      have hs : m'.screen = picture ps := congrArg Video.screen ih
      have hd : m'.display = shownTo m.display (pictures ps) := congrArg Video.display ih
      rw [Option.toList_some, pictures_concat, shownTo_append, shownTo_singleton, ← hd,
        picture_concat, ← hs]
  | @reset m' ps _ ih =>
    have hd : m'.display = shownTo m.display (pictures ps) := congrArg Video.display ih
    rw [video_reset, pictures_concat, shownTo_append, shownTo_singleton, ← hd, picture_concat]
    rfl
  | loadProgram program _ ih =>
    rw [video_loadProgram]
    exact ih
  | keys keys _ ih => exact ih

/-- The cycles of a run. -/
theorem leads_run {n : Nat} (h : run n m = .ok () m') :
    Leads m ((List.range n).filterMap fun k => (after (run k) m).presentation?) m' := by
  induction n generalizing m' with
  | zero =>
    obtain rfl : m = m' := by simpa [run] using h
    exact .start m
  | succ n ih =>
    have hlast : cycle (after (run n) m) = .ok () m' := by
      rw [← run_succ (run_of_le h (Nat.le_succ n)), h]
    have hsteps := (ih (run_of_le h (Nat.le_succ n))).cycle hlast
    rw [List.range_succ, List.filterMap_append]
    cases hp : (after (run n) m).presentation? with
    | none => simpa [hp] using hsteps
    | some p => simpa [hp] using hsteps

/-- What a machine presents from power-on. There is one picture for each clearing of the screen, by
an instruction or a reset, and for each sprite drawn, and a pixel in it is lit if an odd number of
the sprites cover it that were drawn since the last clearing. The screen is always the last picture.
What is presented later leaves the earlier pictures as they are, and two runs that drew the same
sprites since the last clearing have the same screen, in whatever order they drew them. -/
theorem screen_history {keys : κ} {sounder : β} {display : δ} {bytes : ρ} {tracing : Bool}
    {trace : Trace} (h : Leads (powerOn keys sounder display bytes tracing trace) ps m) :
    (m.display = shownTo display (pictures ps) ∧ (pictures ps).length = ps.length) ∧
    (∀ k (hk : k < (pictures ps).length), ∀ c < screenWidth, ∀ r < screenHeight,
      ((pictures ps)[k].pixel c r = true ↔
        (sinceCleared (ps.take (k + 1))).countP (·.covers c r) % 2 = 1)) ∧
    m.screen = (pictures ps).getLast?.getD .blank ∧
    (∀ qs m', Leads m qs m' → ∃ later, later.length = qs.length ∧
      pictures (ps ++ qs) = pictures ps ++ later ∧ m'.display = shownTo m.display later) ∧
    (∀ qs m', Leads (powerOn keys sounder display bytes tracing trace) qs m' →
      (sinceCleared qs).Perm (sinceCleared ps) → m'.screen = m.screen) := by
  have hr : Reachable (powerOn keys sounder display bytes tracing trace) :=
    .powerOn keys sounder display bytes tracing trace
  have hv := h.video hr rfl
  have hs : m.screen = picture ps := congrArg Video.screen hv
  have hd : m.display = shownTo display (pictures ps) := congrArg Video.display hv
  refine ⟨⟨hd, length_pictures ps⟩, ?_, ?_, ?_, ?_⟩
  · intro k hk c hc r hr
    have hpicture : (pictures ps)[k] = picture (ps.take (k + 1)) := by simp [pictures]
    rw [hpicture, pixel_picture _ hc hr, decide_eq_true_iff]
  · rw [hs, getLast?_pictures]
  · intro qs m' h'
    refine ⟨_, ?_, pictures_append ps qs, ?_⟩
    · rw [List.length_map, List.length_range]
    · have hd' : m'.display = shownTo display (pictures (ps ++ qs)) :=
        congrArg Video.display ((h.trans h').video hr rfl)
      rw [hd', pictures_append, shownTo_append, hd]
  · intro qs m' h' hperm
    have hs' : m'.screen = picture qs := congrArg Video.screen (h'.video hr rfl)
    rw [hs', hs, picture_eq_of_perm hperm]

/-- A glyph is drawn in the corner of the screen, at a row that wraps around, and once more two
columns further on. The second one turns off what both of them cover. The first picture keeps it. -/
theorem screen_history_of_overlapping_glyphs :
    ∃ (ps : List Presentation) (m : Machine NoKeys BeepCounter Recorder ByteLoop)
      (first second : Screen),
      Leads (powerOn {} .fresh .keepingAll ⟨#[], 0⟩ false (.withLimit none)) ps m ∧
      m.display.history = some #[first, second] ∧ m.screen = second ∧
      first.pixel 62 31 = true ∧ second.pixel 62 31 = false ∧ second.pixel 61 31 = true := by
  obtain ⟨m₀, hm₀⟩ : ∃ m₀ : Machine NoKeys BeepCounter Recorder ByteLoop,
      m₀ = after (loadProgram [0x60, 0x3C, 0x61, 0x5F, 0xD0, 0x15, 0x60, 0x3E, 0xD0, 0x15])
        (powerOn {} .fresh .keepingAll ⟨#[], 0⟩ false (.withLimit none)) := ⟨_, rfl⟩
  obtain ⟨hok, hps⟩ : (∀ k < 5, (after (run k) m₀).firstFault? = none) ∧
      ((List.range 5).filterMap fun k => (after (run k) m₀).presentation?) =
        [.drawn ⟨0x3C, 0x5F, [0xF0, 0x90, 0x90, 0x90, 0xF0]⟩,
          .drawn ⟨0x3E, 0x5F, [0xF0, 0x90, 0x90, 0x90, 0xF0]⟩] := by
    rw [hm₀]
    decide +kernel
  have hi : m₀.cpu.Intact := by
    rw [hm₀]
    exact loadProgram_intact intact_powerOn _
  have hl := leads_run (run_of_firstFault? hi hok)
  rw [hps, hm₀] at hl
  have h := Leads.trans (.loadProgram _ (.start _)) hl
  obtain ⟨⟨hd, -⟩, hpixel, hs, -, -⟩ := screen_history h
  refine ⟨_, _, _, _, h, congrArg Recorder.history hd, hs, ?_, ?_, ?_⟩
  · exact (hpixel 0 (by decide) 62 (by decide) 31 (by decide)).mpr (by decide)
  · refine Bool.eq_false_iff.mpr fun hlit => ?_
    exact absurd ((hpixel 1 (by decide) 62 (by decide) 31 (by decide)).mp hlit) (by decide)
  · exact (hpixel 1 (by decide) 61 (by decide) 31 (by decide)).mpr (by decide)


end Machine

end Chip8
