import Chip8.Proofs.Frame.Play

/-!
# Releases across frames

A keypad has two bits for each key: whether it is down, and whether it was when the last input frame
was closed. That is all that is kept of what happened to the key. Here it is compared with the whole
history of events: the first bit says that the key is held, by everything that happened up to now,
and the second that it was held in the last frame that ran cycles.

So no release is lost, however many frames without cycles follow it, and none is seen twice: the
cycles of one frame see it, and in the next frame that runs any the key was not held before.

Between two frames with cycles a key may be let go and pressed again, or the other way round. That
is no release, and no cycle could have told.

## Main results

* `isDown_heard` — the keys that are down are the keys held
* `before_of_last` — what was down is what was held in the last frame with cycles
* `releases_seen` — what the cycles of a frame see of the keys
-/

namespace Chip8

namespace Paced

variable {β δ ρ : Type}

/-! ### The history of the keys -/

/-- What happened to the keys before a frame. -/
def history (inputs : Nat → FrameInput) (f : Nat) : List KeyEvent :=
  (List.range f).flatMap fun g => (inputs g).events

theorem history_succ (inputs : Nat → FrameInput) (f : Nat) :
    history inputs (f + 1) = history inputs f ++ (inputs f).events := by
  rw [history, List.range_succ, List.flatMap_append, List.flatMap_singleton]
  rfl

/-- Whether a key is held in a frame: of all that happened to it, up to the events of the frame,
the last is that it was pressed. -/
def held (inputs : Nat → FrameInput) (f : Nat) (k : Key) : Bool :=
  KeyEvent.pressedLast (history inputs (f + 1)) k

variable [Sounder β] [Display δ] [ByteSource ρ]
variable {s : Paced Keypad β δ ρ} {inputs : Nat → FrameInput} {f g : Nat}

/-! ### The two bits of a key -/

/-- The keys after a frame, in terms of the keys that its cycles saw. -/
theorem keys_play_succ (hp : s.pacer.Fair) (hc : s.Completes inputs f) :
    (s.play inputs (f + 1)).machine.keys =
      if s.cyclesIn inputs f = 0 then (s.heard inputs f).machine.keys
      else (s.heard inputs f).machine.keys.closeFrame := by
  rw [machine_play_succ hp hc]
  rfl

theorem isDown_play_succ (hp : s.pacer.Fair) (hc : s.Completes inputs f) (k : Key) :
    (s.play inputs (f + 1)).machine.keys.isDown k = (s.heard inputs f).machine.keys.isDown k := by
  rw [keys_play_succ hp hc]
  split <;> rfl

/-- What was down is replaced by what is down in a frame with cycles, and kept in one without. -/
theorem before_play_succ (hp : s.pacer.Fair) (hc : s.Completes inputs f) :
    (s.play inputs (f + 1)).machine.keys.before =
      if s.cyclesIn inputs f = 0 then (s.play inputs f).machine.keys.before
      else (s.heard inputs f).machine.keys.down := by
  rw [keys_play_succ hp hc]
  split
  · exact Keypad.before_foldl_hear _ _
  · rfl

/-- The events of a frame are heard by the keys as they were left before it. -/
theorem isDown_heard_of {k : Key}
    (h : (s.play inputs f).machine.keys.isDown k = KeyEvent.pressedLast (history inputs f) k) :
    (s.heard inputs f).machine.keys.isDown k = held inputs f k := by
  have hheard : (s.heard inputs f).machine.keys =
      (inputs f).events.foldl Keypad.hear (s.play inputs f).machine.keys := rfl
  rw [hheard, Keypad.isDown_foldl_hear, h, ← KeyEvent.pressedLast_append, ← history_succ, held]

/-- Keys are down before a frame if they were pressed last in the frames before. -/
theorem isDown_play (h : s.machine.keys = .initial) (hp : s.pacer.Fair)
    (hc : ∀ g < f, s.Completes inputs g) (k : Key) :
    (s.play inputs f).machine.keys.isDown k = KeyEvent.pressedLast (history inputs f) k := by
  induction f with
  | zero =>
    rw [play, h]
    exact BitVec.getLsbD_zero
  | succ f ih =>
    rw [isDown_play_succ hp (hc f (Nat.lt_succ_self f))]
    exact isDown_heard_of (ih fun g hg => hc g (Nat.lt_succ_of_lt hg))

/-- The keys that are down in a frame are those that are held. -/
theorem isDown_heard (h : s.machine.keys = .initial) (hp : s.pacer.Fair)
    (hc : ∀ g < f, s.Completes inputs g) (k : Key) :
    (s.heard inputs f).machine.keys.isDown k = held inputs f k :=
  isDown_heard_of (isDown_play h hp hc k)

/-- Frames without cycles do not change what was down. -/
theorem before_of_idle (hp : s.pacer.Fair) (hgf : g ≤ f) (hc : ∀ j < f, s.Completes inputs j)
    (hidle : ∀ j, g ≤ j → j < f → s.cyclesIn inputs j = 0) :
    (s.play inputs f).machine.keys.before = (s.play inputs g).machine.keys.before := by
  induction hgf with
  | refl => rfl
  | @step f hgf ih =>
    rw [Nat.succ_eq_add_one, before_play_succ hp (hc f (Nat.lt_succ_self f)),
      if_pos (hidle f hgf (Nat.lt_succ_self f))]
    exact ih (fun j hj => hc j (Nat.lt_succ_of_lt hj))
      fun j hgj hj => hidle j hgj (Nat.lt_succ_of_lt hj)

/-- What was down is what was held in the last frame with cycles. -/
theorem before_of_last (h : s.machine.keys = .initial) (hp : s.pacer.Fair)
    (hc : ∀ j < f, s.Completes inputs j) (hgf : g < f) (hg : 0 < s.cyclesIn inputs g)
    (hidle : ∀ j, g < j → j < f → s.cyclesIn inputs j = 0) (k : Key) :
    (s.play inputs f).machine.keys.before.getLsbD k = held inputs g k := by
  rw [before_of_idle hp hgf hc hidle, before_play_succ hp (hc g hgf), if_neg (by omega)]
  exact isDown_heard h hp (fun j hj => hc j (Nat.lt_trans hj hgf)) k

/-! ### What cycles see -/

/-- What the cycles of a frame see of the keys, all of them the same: a key is down if it is held,
and it was let go if it is not held but was in the last frame before that ran any cycles. -/
theorem releases_seen (h : s.machine.keys = .initial) (hp : s.pacer.Fair)
    (hc : ∀ g ≤ f, s.Completes inputs g) {i : Nat} (hi : i < s.cyclesIn inputs f) :
    ∃ m, Machine.run i (s.heard inputs f).machine = .ok () m ∧
      ∀ k, KeyInput.isDown m.keys k = held inputs f k ∧
        (∀ g < f, 0 < s.cyclesIn inputs g →
          (∀ j, g < j → j < f → s.cyclesIn inputs j = 0) →
          KeyInput.wasReleased m.keys k = (held inputs g k && !held inputs f k)) ∧
        ((∀ g < f, s.cyclesIn inputs g = 0) → KeyInput.wasReleased m.keys k = false) := by
  have hearlier : ∀ g < f, s.Completes inputs g := fun g hg => hc g (Nat.le_of_lt hg)
  refine ⟨_, Machine.run_of_le (hc f (Nat.le_refl f)).run (Nat.le_of_lt hi), fun k => ?_⟩
  rw [Machine.keys_run]
  have hdown := isDown_heard h hp hearlier k
  have hbefore : (s.heard inputs f).machine.keys.before = (s.play inputs f).machine.keys.before :=
    Keypad.before_foldl_hear _ _
  have hreleased : KeyInput.wasReleased (s.heard inputs f).machine.keys k =
      ((s.play inputs f).machine.keys.before.getLsbD k && !held inputs f k) := by
    rw [← hbefore, ← hdown]
    exact Keypad.wasReleased_eq _ k
  refine ⟨hdown, fun g hgf hg hidle => ?_, fun hidle => ?_⟩
  · rw [hreleased, before_of_last h hp hearlier hgf hg hidle]
  · rw [hreleased, before_of_idle hp (Nat.zero_le f) hearlier fun j _ => hidle j, play, h]
    simp [Keypad.initial]

/-- A key is pressed in one frame and let go in the next, which is too short for a cycle. The cycle
of the frame after that sees it. -/
theorem releases_seen_past_idle_frame :
    ∃ (s : Paced Keypad BeepCounter Recorder ByteLoop) (inputs : Nat → FrameInput)
      (m : Machine Keypad BeepCounter Recorder ByteLoop),
      s.pacer = ⟨.whole 1, .whole 3, .zero⟩ ∧
      inputs 0 = ⟨[.press ⟨5, by decide⟩], .whole 1⟩ ∧
      inputs 1 = ⟨[.release ⟨5, by decide⟩], .whole 0⟩ ∧ inputs 2 = ⟨[], .whole 1⟩ ∧
      Machine.run 0 (s.heard inputs 2).machine = .ok () m ∧
      KeyInput.wasReleased m.keys ⟨5, by decide⟩ = true := by
  have h : (Processor.powerOn.withProgram [0x12, 0x00]).Intact :=
    Processor.intact_powerOn.withProgram (by decide)
  obtain ⟨s, hs⟩ : ∃ s : Paced Keypad BeepCounter Recorder ByteLoop, s =
      ⟨{ Machine.powerOn .initial .fresh .fresh ⟨#[], 0⟩ false (.withLimit none) with
        cpu := Processor.powerOn.withProgram [0x12, 0x00] }, ⟨.whole 1, .whole 3, .zero⟩⟩ :=
    ⟨_, rfl⟩
  obtain ⟨inputs, hinputs⟩ : ∃ inputs : Nat → FrameInput, inputs = fun f =>
      match f with
      | 0 => ⟨[.press ⟨5, by decide⟩], .whole 1⟩
      | 1 => ⟨[.release ⟨5, by decide⟩], .whole 0⟩
      | _ => ⟨[], .whole 1⟩ := ⟨_, rfl⟩
  have hmade : Pacer.create (.whole 1) (.whole 3) = .ok ⟨.whole 1, .whole 3, .zero⟩ := rfl
  have hfair : s.pacer.Fair := by
    rw [hs]
    exact Pacer.fair_create hmade
  have hintact : s.machine.cpu.Intact := by
    rw [hs]
    exact h
  obtain ⟨h0, h1, h2, hok⟩ :
      s.cyclesIn inputs 0 = 1 ∧ s.cyclesIn inputs 1 = 0 ∧ s.cyclesIn inputs 2 = 1 ∧
      ∀ g < 3, ∀ k < s.cyclesIn inputs g,
        (Machine.after (Machine.run k) (s.heard inputs g).machine).firstFault? = none := by
    rw [hs, hinputs]
    decide +kernel
  have hc := completes_of_firstFault? hintact hfair hok
  obtain ⟨m, hm, hseen⟩ := releases_seen (by rw [hs]; rfl) hfair
    (fun g hg => hc g (Nat.lt_succ_of_le hg)) (i := 0) (by rw [h2]; decide)
  have hlast := (hseen ⟨5, by decide⟩).2.1 0 (by decide) (by rw [h0]; decide) fun j hj hj2 => by
    obtain rfl : j = 1 := by omega
    exact h1
  refine ⟨s, inputs, m, congrArg pacer hs, congrFun hinputs 0, congrFun hinputs 1,
    congrFun hinputs 2, hm, ?_⟩
  rw [hlast, hinputs]
  decide

end Paced

end Chip8
