import Chip8.Proofs.Frame.Wait
import Chip8.Proofs.Machine.Picture

/-!
# Machines without their devices

What a program computes does not depend on where it runs. Of the keys it can tell which are down and
which were let go, and of the tone and the display nothing at all, as long as they do not fail. So
every machine has a bare one in it, with a view of the keys in place of the keys, and with a tone
and a display that do nothing. A cycle of the machine is a cycle of the bare machine, whether it
fails or not.

Two machines with the same bare machine are therefore the same to every program, and stay so. That
is how machines with different devices are compared: each with its bare machine, and never with each
other.

Traces are left out. A bare machine keeps none.

## Main definitions

* `Machine.bare` — the bare machine
* `Machine.Calm` — that no device is going to fail

## Main results

* `Machine.cycle_bare` — one cycle
* `Machine.run_bare` — a run of cycles
-/

namespace Chip8

/-! ### Views and idle devices -/

/-- What a program can tell of the keys. -/
structure KeyView where
  isDown : Key → Bool
  wasReleased : Key → Bool

/-- A view of the keys as they are now. -/
def keyView {κ : Type} [KeyInput κ] (keys : κ) : KeyView :=
  ⟨KeyInput.isDown keys, KeyInput.wasReleased keys⟩

instance : KeyInput KeyView := ⟨KeyView.isDown, KeyView.wasReleased, fun _ => none⟩

/-- A tone or a display that does nothing. -/
structure Idle where
  deriving DecidableEq, Repr

instance : Sounder Idle := ⟨.well⟩

instance : Display Idle := ⟨fun _ => .well⟩

/-! ### Displays that do not fail -/

section Steady

variable {δ : Type} [Display δ] {d : δ}

/-- Whether a display does not fail, whatever is presented on it. -/
def Steady (d : δ) : Prop :=
  ∀ screens s, (Display.present s (shownTo d screens)).failure = none

theorem Steady.now (h : Steady d) (s : Screen) : (Display.present s d).failure = none := h [] s

theorem Steady.present (h : Steady d) (s : Screen) : Steady (Display.present s d).device :=
  fun screens => h (s :: screens)

/-- A display does not fail if it has what keeps it from failing, and never loses it. -/
theorem steady_of_kept {P : δ → Prop}
    (hkept : ∀ d, P d → ∀ s, (Display.present s d).failure = none ∧ P (Display.present s d).device)
    (h : P d) : Steady d := by
  intro screens s
  induction screens generalizing d with
  | nil => exact (hkept d h s).1
  | cons first screens ih => exact ih (hkept d h first).2

end Steady

/-- A recorder without a limit takes every screen. -/
theorem Recorder.present_eq {r : Recorder} (h : r.capacity = none) (s : Screen) :
    Display.present s r = .well (r.add s) := by
  have hgone : r.isGone = false := by rw [isGone, h]
  change (if r.isGone then _ else _) = _
  rw [hgone]
  rfl

/-- A recorder without a limit does not fail. -/
theorem Recorder.steady {r : Recorder} (h : r.capacity = none) : Steady r := by
  refine steady_of_kept (P := fun r : Recorder => r.capacity = none) (fun r hr s => ?_) h
  rw [present_eq hr]
  exact ⟨rfl, hr⟩

namespace Machine

open Processor

/-- A machine without devices. -/
abbrev BareMachine (ρ : Type) := Machine KeyView Idle Idle ρ

variable {κ β δ ρ : Type} {m m' : Machine κ β δ ρ}

/-! ### The bare machine -/

/-- A machine without its devices. -/
def bare [KeyInput κ] (m : Machine κ β δ ρ) : BareMachine ρ where
  cpu := m.cpu
  video := ⟨m.screen, {}⟩
  keys := keyView m.keys
  sounder := {}
  bytes := m.bytes
  tracing := false
  trace := .withLimit none

/-- How an action ends, without the devices. -/
def bareResult {α : Type} [KeyInput κ] :
    EStateM.Result Fault (Machine κ β δ ρ) α → EStateM.Result Fault (BareMachine ρ) α
  | .ok a m => .ok a m.bare
  | .error f m => .error f m.bare

section Bare

variable [KeyInput κ]

/-- What is recorded, and whether, makes no difference. -/
theorem bare_record (before : Processor) (w : Option Word) (failure : Option Fault) :
    (m.record before w failure).bare = m.bare := by
  rw [record_eq]
  rfl

theorem bare_loadProgram (program : List UInt8) (m : Machine κ β δ ρ) :
    (after (loadProgram program) m).bare = after (loadProgram program) m.bare := by
  rw [after_loadProgram, after_loadProgram]
  split <;> rfl

theorem videoAfter_bare [Display δ] (m : Machine κ β δ ρ) :
    m.bare.videoAfter = ⟨m.videoAfter.screen, {}⟩ := by
  have hshown : m.bare.shown? = m.shown? := rfl
  rw [videoAfter, videoAfter, hshown]
  cases m.shown? <;> rfl

/-- A bare machine fails at the same stage, unless it is a device that fails. -/
theorem firstFault?_bare [Sounder β] [Display δ] (hd : m.displayFailure? = none)
    (hs : m.soundFailure? = none) : m.bare.firstFault? = m.firstFault? := by
  have hdisplay : m.bare.displayFailure? = none := by
    rw [displayFailure?]
    cases m.bare.shown? <;> rfl
  have hsound : m.bare.soundFailure? = none := ite_self _
  have hfault : ∀ s, m.bare.faultAt? s = m.faultAt? s := by
    intro s
    cases s with
    | fetch | decode | stack | access => rfl
    | display => rw [faultAt?, faultAt?, hdisplay, hd]
    | sound => rw [faultAt?, faultAt?, hsound, hs]
  rw [firstFault?, firstFault?]
  simp only [hfault]

variable [Sounder β] [Display δ] [ByteSource ρ]

/-- Each part of what an instruction comes to depends on the bare machine only. -/
theorem bare_settled (m : Machine κ β δ ρ) : m.settled.bare = m.bare.settled := by
  change { m.bare.settled with video := ⟨m.videoAfter.screen, {}⟩ } = m.bare.settled
  rw [← videoAfter_bare]
  rfl

theorem bare_completed (m : Machine κ β δ ρ) : m.completed.bare = m.bare.completed := by
  rw [completed, bare_record]
  change m.settled.bare.countCycle = m.bare.settled.countCycle
  rw [bare_settled]

theorem bare_leftAt (m : Machine κ β δ ρ) (f : Fault) (s : Stage) :
    (m.leftAt f s).bare = m.bare.leftAt f s := by
  cases s with
  | fetch | decode | stack | access =>
    rw [leftAt, bare_record]
    rfl
  | display =>
    rw [leftAt, bare_record]
    change { m.bare.past with video := ⟨m.videoAfter.screen, {}⟩ } = m.bare.leftAt f .display
    rw [← videoAfter_bare]
    rfl
  | sound => exact bare_settled m

/-- A cycle that fails as the cycle of the bare machine does is a cycle of the bare machine. -/
theorem cycle_bare_of_firstFault? (h : m.cpu.Intact) (hf : m.bare.firstFault? = m.firstFault?) :
    cycle m.bare = bareResult (cycle m) := by
  have hb : m.bare.cpu.Intact := h
  rw [cycle_eq h, cycle_eq hb, hf]
  cases m.firstFault? with
  | none => rw [bareResult, bare_completed]
  | some sf => rw [bareResult, bare_leftAt]

/-- A cycle in which no device fails is a cycle of the bare machine. -/
theorem cycle_bare (h : m.cpu.Intact) (hd : m.displayFailure? = none)
    (hs : m.soundFailure? = none) : cycle m.bare = bareResult (cycle m) :=
  cycle_bare_of_firstFault? h (firstFault?_bare hd hs)

end Bare

/-! ### Devices after a cycle -/

theorem video_record (before : Processor) (w : Option Word) (failure : Option Fault) :
    (m.record before w failure).video = m.video := by
  rw [record_eq]

theorem sounder_record (before : Processor) (w : Option Word) (failure : Option Fault) :
    (m.record before w failure).sounder = m.sounder := by
  rw [record_eq]

section Devices

variable [KeyInput κ] [Sounder β] [Display δ] [ByteSource ρ]

/-- A cycle presents one screen at most, whether it fails or not. -/
theorem video_after_cycle (h : m.cpu.Intact) :
    (after cycle m).video = m.video ∨
      ∃ s, (after cycle m).video = ⟨s, (Display.present s m.display).device⟩ := by
  have hpresented : m.videoAfter = m.video ∨
      ∃ s, m.videoAfter = ⟨s, (Display.present s m.display).device⟩ := by
    rw [videoAfter]
    cases m.shown? with
    | none => exact .inl rfl
    | some s => exact .inr ⟨s, rfl⟩
  have hleft : (after cycle m).video = m.video ∨ (after cycle m).video = m.videoAfter := by
    rw [after, cycle_eq h]
    cases m.firstFault? with
    | none => exact .inr video_completed
    | some sf =>
      obtain ⟨s, f⟩ := sf
      cases s with
      | fetch | decode | stack | access => exact .inl (video_record _ _ _)
      | display => exact .inr (video_record _ _ _)
      | sound => exact .inr rfl
  obtain hv | hv := hleft
  · exact .inl hv
  · rw [hv]
    exact hpresented

/-- A cycle sounds the tone once at most. -/
theorem sounder_after_cycle (h : m.cpu.Intact) :
    (after cycle m).sounder = m.sounder ∨
      (after cycle m).sounder = (Sounder.beep m.sounder).device := by
  have hsounded : m.sounderAfter = m.sounder ∨
      m.sounderAfter = (Sounder.beep m.sounder).device := by
    rw [sounderAfter]
    split
    · exact .inr rfl
    · exact .inl rfl
  have hleft : (after cycle m).sounder = m.sounder ∨
      (after cycle m).sounder = m.sounderAfter := by
    rw [after, cycle_eq h]
    cases m.firstFault? with
    | none => exact .inr sounder_completed
    | some sf =>
      obtain ⟨s, f⟩ := sf
      cases s with
      | fetch | decode | stack | access | display => exact .inl (sounder_record _ _ _)
      | sound => exact .inr rfl
  obtain hb | hb := hleft
  · exact .inl hb
  · rw [hb]
    exact hsounded

end Devices

/-! ### Machines that no device disturbs -/

section Calm

variable [Sounder β] [Display δ]

/-- An intact machine whose devices do not fail, now or later. -/
structure Calm (m : Machine κ β δ ρ) : Prop where
  intact : m.cpu.Intact
  display : Steady m.display
  sounder : Reliable m.sounder

theorem calm_powerOn {sounder : β} {display : δ} (hb : Reliable sounder) (hd : Steady display)
    (keys : κ) (bytes : ρ) (tracing : Bool) (trace : Trace) :
    (powerOn keys sounder display bytes tracing trace).Calm :=
  ⟨intact_powerOn, hd, hb⟩

theorem Calm.loadProgram (h : m.Calm) (program : List UInt8) :
    (after (loadProgram program) m).Calm := by
  refine ⟨loadProgram_intact h.intact program, ?_, ?_⟩
  · rw [Machine.display, video_loadProgram]
    exact h.display
  · have hs : (after (Machine.loadProgram program) m).sounder = m.sounder := by
      rw [after_loadProgram]
      split <;> rfl
    rw [hs]
    exact h.sounder

theorem Calm.displayFailure? (h : m.Calm) : m.displayFailure? = none := by
  rw [Machine.displayFailure?]
  cases m.shown? with
  | none => rfl
  | some s => exact h.display.now s

theorem Calm.soundFailure? (h : m.Calm) : m.soundFailure? = none := by
  rw [Machine.soundFailure?, h.sounder.now]
  exact ite_self _

variable [KeyInput κ] [ByteSource ρ]

theorem Calm.cycle (h : m.Calm) : (after cycle m).Calm := by
  refine ⟨cycle_intact h.intact, ?_, ?_⟩
  · obtain hv | ⟨s, hv⟩ := video_after_cycle h.intact
    · have hd : (after Machine.cycle m).display = m.display := congrArg Video.display hv
      rw [hd]
      exact h.display
    · have hd : (after Machine.cycle m).display = (Display.present s m.display).device :=
        congrArg Video.display hv
      rw [hd]
      exact h.display.present s
  · obtain hb | hb := sounder_after_cycle h.intact
    · rw [hb]
      exact h.sounder
    · rw [hb]
      exact h.sounder.beep

theorem Calm.run (h : m.Calm) (n : Nat) : (after (run n) m).Calm :=
  run_induction (P := Calm) (fun _ => Calm.cycle) n h

/-- A run in which no device fails is a run of the bare machine. -/
theorem run_bare (h : m.Calm) (n : Nat) : run n m.bare = bareResult (run n m) := by
  induction n generalizing m with
  | zero => rfl
  | succ n ih =>
    have hc := cycle_bare h.intact h.displayFailure? h.soundFailure?
    have hnext := h.cycle
    rw [after] at hnext
    rw [Machine.run, Machine.run, hc]
    cases he : Machine.cycle m with
    | error f m' => rfl
    | ok _ m' =>
      rw [he] at hnext
      exact ih hnext

end Calm

end Machine

end Chip8
