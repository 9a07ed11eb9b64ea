import Chip8.Machine.Frame
import Chip8.Proofs.Machine.Keys
import Chip8.Proofs.Pacer

/-!
# Frames in a row

A machine with a keypad is played frame by frame. To begin with, keys are pressed and let go; then
the frame runs the cycles that the elapsed time is worth, and closes the input frame of the keys if
there were any. The keys do not change while the cycles are run, so all cycles of a frame see the
same keys.

A frame may be worth no cycle, and so may a number of frames in a row. Where the elapsed time cannot
be turned into cycles at all, the frame fails before it runs any; for the machine that is a frame
without cycles, and it can be played on afterwards. A frame that fails in the middle of its cycles
is another matter, and `Completes` says that this does not happen.

## Main results

* `Keypad.isDown_foldl_hear` — the keys that are down after some events
* `machine_play_succ` — from the machine before a frame to the machine before the next one
-/

namespace Chip8

/-! ### Key events -/

/-- A key is pressed or let go. -/
inductive KeyEvent where
  | press (k : Key)
  | release (k : Key)
  deriving DecidableEq, Repr

namespace KeyEvent

/-- The key that an event is about. -/
def key : KeyEvent → Key
  | press k => k
  | release k => k

/-- Whether the key is pressed. -/
def isPress : KeyEvent → Bool
  | press _ => true
  | release _ => false

/-- The last event about a key. -/
def last? (events : List KeyEvent) (k : Key) : Option KeyEvent :=
  events.reverse.find? fun e => e.key == k

theorem last?_append (before events : List KeyEvent) (k : Key) :
    last? (before ++ events) k = (last? events k).or (last? before k) := by
  rw [last?, List.reverse_append, List.find?_append]
  rfl

/-- Whether a key was pressed, and not let go afterwards. -/
def pressedLast (events : List KeyEvent) (k : Key) : Bool :=
  (last? events k).any isPress

theorem pressedLast_append (before events : List KeyEvent) (k : Key) :
    pressedLast (before ++ events) k =
      ((last? events k).map isPress).getD (pressedLast before k) := by
  rw [pressedLast, last?_append]
  cases last? events k <;> rfl

end KeyEvent

namespace Keypad

/-- The keypad after an event. -/
def hear (p : Keypad) : KeyEvent → Keypad
  | .press k => p.press k
  | .release k => p.release k

theorem isDown_hear (p : Keypad) (e : KeyEvent) (k : Key) :
    (p.hear e).isDown k = if e.key = k then e.isPress else p.isDown k := by
  cases e with
  | press j =>
    rw [hear, isDown_press, KeyEvent.key, KeyEvent.isPress]
    by_cases h : j = k
    · simp [h]
    · simp [h, Ne.symm h]
  | release j =>
    rw [hear, isDown_release, KeyEvent.key, KeyEvent.isPress]
    by_cases h : j = k
    · simp [h]
    · simp [h, Ne.symm h]

/-- Which keys are down is settled by the last event about each. -/
theorem isDown_foldl_hear (events : List KeyEvent) (p : Keypad) (k : Key) :
    (events.foldl hear p).isDown k =
      ((KeyEvent.last? events k).map KeyEvent.isPress).getD (p.isDown k) := by
  induction events generalizing p with
  | nil => rfl
  | cons e events ih =>
    rw [List.foldl_cons, ih, isDown_hear, ← List.singleton_append, KeyEvent.last?_append]
    cases KeyEvent.last? events k with
    | some e' => rfl
    | none => by_cases h : e.key = k <;> simp [KeyEvent.last?, h]

/-- Events do not change what was down when the last input frame was closed. -/
theorem before_foldl_hear (events : List KeyEvent) (p : Keypad) :
    (events.foldl hear p).before = p.before := by
  induction events generalizing p with
  | nil => rfl
  | cons e events ih =>
    rw [List.foldl_cons, ih]
    cases e <;> rfl

end Keypad

/-! ### Frames -/

/-- What comes in for a frame. -/
structure FrameInput where
  events : List KeyEvent
  /-- The seconds that have elapsed. -/
  elapsed : Quantity
  deriving DecidableEq, Repr

namespace Paced

variable {β δ ρ : Type}

/-- The machine once it was told about key events. -/
def hear (events : List KeyEvent) (s : Paced Keypad β δ ρ) : Paced Keypad β δ ρ :=
  { s with machine := s.machine.withKeys (events.foldl Keypad.hear s.machine.keys) }

/-- The number of cycles that some elapsed seconds are worth. -/
def worth (s : Paced Keypad β δ ρ) (elapsed : Quantity) : Nat :=
  match Pacer.advance elapsed s.pacer with
  | .ok n _ => n.toNat
  | .error _ _ => 0

theorem worth_of_error {s : Paced Keypad β δ ρ} {elapsed : Quantity} {e : Quantity.Problem}
    {p : Pacer} (he : Pacer.advance elapsed s.pacer = .error e p) : s.worth elapsed = 0 := by
  rw [worth, he]

theorem worth_of_ok {s : Paced Keypad β δ ρ} {elapsed : Quantity} {n : Int} {p : Pacer}
    (he : Pacer.advance elapsed s.pacer = .ok n p) : s.worth elapsed = n.toNat := by
  rw [worth, he]

variable [Sounder β] [Display δ] [ByteSource ρ]

/-! #### One frame, by how it ends -/

section Frame

variable {s : Paced Keypad β δ ρ} {elapsed : Quantity} {n : Int} {p : Pacer}

/-- No number of cycles, so none is run. -/
theorem frame_of_error {e : Quantity.Problem} (he : Pacer.advance elapsed s.pacer = .error e p) :
    frame elapsed s = .error (.quantity e) ⟨s.machine, p⟩ := by
  simp only [frame, he]

theorem frame_of_fault {e : Fault} {m : Machine Keypad β δ ρ}
    (he : Pacer.advance elapsed s.pacer = .ok n p)
    (hr : Machine.run n.toNat s.machine = .error e m) :
    frame elapsed s = .error (.fault e) ⟨m, p⟩ := by
  simp only [frame, he, hr]

/-- A keypad always has an input frame to close. -/
theorem frame_of_ok {m : Machine Keypad β δ ρ} (he : Pacer.advance elapsed s.pacer = .ok n p)
    (hr : Machine.run n.toNat s.machine = .ok () m) :
    frame elapsed s = .ok n ⟨if n = 0 then m else m.withKeys m.keys.closeFrame, p⟩ := by
  simp only [frame, he, hr]
  by_cases hn : n = 0
  · rw [if_pos hn, if_pos hn]
  · rw [if_neg hn, if_neg hn]
    rfl

end Frame

/-! #### Frame after frame -/

/-- What a frame leaves behind, whether it fails or not. -/
def afterFrame (elapsed : Quantity) (s : Paced Keypad β δ ρ) : Paced Keypad β δ ρ :=
  match frame elapsed s with
  | .ok _ s' => s'
  | .error _ s' => s'

/-- The machine before a frame, counted from zero. -/
def play (s : Paced Keypad β δ ρ) (inputs : Nat → FrameInput) : Nat → Paced Keypad β δ ρ
  | 0 => s
  | f + 1 => ((s.play inputs f).hear (inputs f).events).afterFrame (inputs f).elapsed

/-- The machine that the cycles of a frame start from. -/
def heard (s : Paced Keypad β δ ρ) (inputs : Nat → FrameInput) (f : Nat) : Paced Keypad β δ ρ :=
  (s.play inputs f).hear (inputs f).events

theorem play_succ (s : Paced Keypad β δ ρ) (inputs : Nat → FrameInput) (f : Nat) :
    s.play inputs (f + 1) = (s.heard inputs f).afterFrame (inputs f).elapsed := rfl

/-- The number of cycles in a frame. -/
def cyclesIn (s : Paced Keypad β δ ρ) (inputs : Nat → FrameInput) (f : Nat) : Nat :=
  (s.heard inputs f).worth (inputs f).elapsed

/-- Whether no cycle of a frame fails. -/
def Completes (s : Paced Keypad β δ ρ) (inputs : Nat → FrameInput) (f : Nat) : Prop :=
  ∀ e s', frame (inputs f).elapsed (s.heard inputs f) ≠ .error (.fault e) s'

variable {s : Paced Keypad β δ ρ} {inputs : Nat → FrameInput} {f : Nat}

/-- The pacer stays fair, however the frames end. -/
theorem fair_play (h : s.pacer.Fair) (inputs : Nat → FrameInput) (f : Nat) :
    (s.play inputs f).pacer.Fair := by
  induction f with
  | zero => exact h
  | succ f ih =>
    have hheard : (s.heard inputs f).pacer.Fair := ih
    rw [play_succ, afterFrame]
    cases he : Pacer.advance (inputs f).elapsed (s.heard inputs f).pacer with
    | error e p =>
      rw [frame_of_error he]
      exact hheard.of_advance_error he
    | ok n p =>
      cases hr : Machine.run n.toNat (s.heard inputs f).machine with
      | error e m =>
        rw [frame_of_fault he hr]
        exact (hheard.of_advance_ok he).2
      | ok _ m =>
        rw [frame_of_ok he hr]
        exact (hheard.of_advance_ok he).2

/-- A frame completes exactly if its cycles do. -/
theorem completes_iff :
    s.Completes inputs f ↔
      ∃ m, Machine.run (s.cyclesIn inputs f) (s.heard inputs f).machine = .ok () m := by
  rw [Completes, cyclesIn]
  cases he : Pacer.advance (inputs f).elapsed (s.heard inputs f).pacer with
  | error e p =>
    rw [frame_of_error he, worth_of_error he]
    exact ⟨fun _ => ⟨_, rfl⟩, fun _ e s' => by simp⟩
  | ok n p =>
    rw [worth_of_ok he]
    cases hr : Machine.run n.toNat (s.heard inputs f).machine with
    | error e m =>
      rw [frame_of_fault he hr]
      simp
    | ok _ m =>
      rw [frame_of_ok he hr]
      exact ⟨fun _ => ⟨m, rfl⟩, fun _ e s' => by simp⟩

theorem Completes.run (h : s.Completes inputs f) :
    Machine.run (s.cyclesIn inputs f) (s.heard inputs f).machine =
      .ok () (Machine.after (Machine.run (s.cyclesIn inputs f)) (s.heard inputs f).machine) := by
  obtain ⟨m, hm⟩ := completes_iff.mp h
  exact Machine.run_of_le hm (Nat.le_refl _)

/-- From the machine before a frame to the machine before the next one: its cycles are run, and the
input frame is closed if there were any. -/
theorem machine_play_succ (h : s.pacer.Fair) (hc : s.Completes inputs f) :
    (s.play inputs (f + 1)).machine =
      (Machine.after (Machine.run (s.cyclesIn inputs f)) (s.heard inputs f).machine).withKeys
        (if s.cyclesIn inputs f = 0 then (s.heard inputs f).machine.keys
          else (s.heard inputs f).machine.keys.closeFrame) := by
  have hheard : (s.heard inputs f).pacer.Fair := fair_play h inputs f
  have hkeys := Machine.keys_run (s.cyclesIn inputs f) (s.heard inputs f).machine
  have hrun := hc.run
  rw [play_succ, afterFrame]
  rw [cyclesIn] at hkeys hrun ⊢
  cases he : Pacer.advance (inputs f).elapsed (s.heard inputs f).pacer with
  | error e p =>
    rw [frame_of_error he, worth_of_error he]
    rfl
  | ok n p =>
    have hn : n.toNat = 0 ↔ n = 0 := by
      have := (hheard.of_advance_ok he).1
      omega
    rw [worth_of_ok he] at hkeys hrun ⊢
    rw [frame_of_ok he hrun, ← hkeys]
    simp only [hn]
    split <;> rfl

/-- Frames that complete keep the processor intact. -/
theorem intact_play (hi : s.machine.cpu.Intact) (h : s.pacer.Fair)
    (hc : ∀ g < f, s.Completes inputs g) : (s.play inputs f).machine.cpu.Intact := by
  induction f with
  | zero => exact hi
  | succ f ih =>
    have hf : (s.heard inputs f).machine.cpu.Intact :=
      ih fun g hg => hc g (Nat.lt_succ_of_lt hg)
    rw [machine_play_succ h (hc f (Nat.lt_succ_self f))]
    exact Machine.run_intact hf _

/-- Frames complete if no cycle of them has a fault at any stage. -/
theorem completes_of_firstFault? (hi : s.machine.cpu.Intact) (h : s.pacer.Fair)
    (hn : ∀ g < f, ∀ k < s.cyclesIn inputs g,
      (Machine.after (Machine.run k) (s.heard inputs g).machine).firstFault? = none) :
    ∀ g < f, s.Completes inputs g := by
  induction f with
  | zero => exact fun g hg => absurd hg (Nat.not_lt_zero g)
  | succ f ih =>
    have hearlier := ih fun g hg => hn g (Nat.lt_succ_of_lt hg)
    intro g hg
    by_cases hgf : g < f
    · exact hearlier g hgf
    · obtain rfl : g = f := by omega
      have hintact : (s.heard inputs g).machine.cpu.Intact := intact_play hi h hearlier
      exact completes_iff.mpr ⟨_, Machine.run_of_firstFault? hintact (hn g hg)⟩

end Paced

end Chip8
