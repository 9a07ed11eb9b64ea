import Chip8.Proofs.Machine.Bare
import Chip8.Proofs.Machine.Schedule

/-!
# Observers do not matter

A machine is watched in three ways: its cycles are recorded, its screen is presented on a display,
and its tone is heard. Here two machines are run side by side under the same keys that differ in all
three of them, and in nothing else. As long as no device fails, the two runs cannot be told apart
from inside. They go through the same processors, screens and random bytes, they use their devices
for the same things in the same order, and if they fail, they do so in the same cycle with the same
fault.

That a device does not fail is asked of the run and not of the device: `NoDeviceFails`. A cycle that
fails before it gets to the display has not used it, so nothing is said about what the display would
have done.

The two machines are compared through the bare machine in them, cycle by cycle.

## Main definitions

* `DeviceCall`, `Machine.asks` — what a cycle uses the devices for
* `Machine.SameInside`, `Machine.SameOutcome` — machines, and ends of runs, that differ in what
  watches them at most

## Main results

* `devices_after_cycle` — the devices after a cycle, from what it asks of them
* `observers_do_not_matter` — two runs
-/

namespace Chip8

/-! ### Uses of the devices -/

/-- A use of a device that watches. -/
inductive DeviceCall where
  /-- The display is handed a screen. -/
  | present (s : Screen)
  /-- The tone is sounded. -/
  | beep
  deriving DecidableEq

/-- A tone and a display after one of them was used. -/
def DeviceCall.on {β δ : Type} [Sounder β] [Display δ] (devices : β × δ) :
    DeviceCall → β × δ
  | present s => (devices.1, (Display.present s devices.2).device)
  | beep => ((Sounder.beep devices.1).device, devices.2)

/-- A tone and a display after some uses, one after the other. -/
def afterCalls {β δ : Type} [Sounder β] [Display δ] (devices : β × δ) (calls : List DeviceCall) :
    β × δ :=
  calls.foldl DeviceCall.on devices

namespace Machine

open Processor

variable {κ β δ β' δ' ρ : Type}

/-- The tone and the display of a machine. -/
def devices (m : Machine κ β δ ρ) : β × δ := (m.sounder, m.display)

/-- What a cycle asks of the devices, in its order. A cycle that fails asks for what it gets to. -/
def asks [Sounder β] [Display δ] (m : Machine κ β δ ρ) : List DeviceCall :=
  match m.firstFault? with
  | none | some (.sound, _) =>
    m.shown?.toList.map .present ++ if m.soundSet = 1 then [.beep] else []
  | some (.display, _) => m.shown?.toList.map .present
  | some _ => []

section Devices

variable {m : Machine κ β δ ρ}

theorem devices_record (before : Processor) (w : Option Word) (failure : Option Fault) :
    (m.record before w failure).devices = m.devices := by
  rw [record_eq]
  rfl

variable [Sounder β] [Display δ]

theorem devices_presented :
    ({ m.past with video := m.videoAfter } : Machine κ β δ ρ).devices =
      afterCalls m.devices (m.shown?.toList.map .present) := by
  have hdevices : ({ m.past with video := m.videoAfter } : Machine κ β δ ρ).devices =
      (m.sounder, m.videoAfter.display) := rfl
  rw [hdevices, videoAfter]
  cases m.shown? <;> rfl

variable [KeyInput κ] [ByteSource ρ]

/-- A screen is presented before the tone is sounded. -/
theorem devices_settled :
    m.settled.devices = afterCalls m.devices
      (m.shown?.toList.map .present ++ if m.soundSet = 1 then [.beep] else []) := by
  have hdevices : m.settled.devices = (m.sounderAfter, m.videoAfter.display) := rfl
  rw [hdevices, sounderAfter, videoAfter]
  split <;> cases m.shown? <;> rfl

/-- The devices after a cycle are those before it, after what the cycle asks of them. -/
theorem devices_after_cycle (h : m.cpu.Intact) :
    (after cycle m).devices = afterCalls m.devices m.asks := by
  rw [after, cycle_eq h, asks]
  cases m.firstFault? with
  | none => exact (devices_record _ _ _).trans devices_settled
  | some sf =>
    obtain ⟨s, f⟩ := sf
    cases s with
    | fetch | decode | stack | access => exact devices_record _ _ _
    | display => exact (devices_record _ _ _).trans devices_presented
    | sound => exact devices_settled

end Devices

/-! ### The bare machine, once more -/

section Bare

variable [KeyInput κ] [Sounder β] [Display δ] {m : Machine κ β δ ρ}

/-- Up to the display, a machine and the bare machine in it have the same faults. -/
theorem faultAt?_bare {s : Stage} (h : stages.idxOf s < stages.idxOf .display) :
    m.bare.faultAt? s = m.faultAt? s := by
  cases s with
  | fetch | decode | stack | access => rfl
  | display | sound => exact absurd h (by decide)

/-- Such a cycle asks the devices for what the bare machine asks them for. -/
theorem asks_bare (hf : m.bare.firstFault? = m.firstFault?) : m.bare.asks = m.asks := by
  rw [asks, asks, hf]
  rfl

variable [ByteSource ρ]

/-- A cycle in which no device fails has the same first fault, even if a device would have failed
that it did not get to. -/
theorem firstFault?_bare_of_no_device (h : m.cpu.Intact)
    (hd : ∀ reason m', cycle m ≠ .error (.device reason) m') :
    m.bare.firstFault? = m.firstFault? := by
  cases hf : m.firstFault? with
  | none =>
    have hpassed := firstFault?_eq_none_iff.mp hf
    rw [firstFault?_bare (Option.map_eq_none_iff.mp (hpassed .display))
      (Option.map_eq_none_iff.mp (hpassed .sound)), hf]
  | some sf =>
    obtain ⟨s, f⟩ := sf
    obtain ⟨hdisplay, hsound⟩ := stage_of_no_device h hd hf
    obtain ⟨hhere, hbefore⟩ := firstFault?_eq_some_iff.mp hf
    have hlt : stages.idxOf s < stages.idxOf .display := by
      cases s with
      | fetch | decode | stack | access => decide
      | display => exact absurd rfl hdisplay
      | sound => exact absurd rfl hsound
    refine firstFault?_eq_some_iff.mpr ⟨(faultAt?_bare hlt).trans hhere, fun s' hs' => ?_⟩
    rw [faultAt?_bare (Nat.lt_trans hs' hlt), hbefore s' hs']

end Bare

/-! ### Runs in which no device fails -/

section NoDeviceFails

variable [Sounder β] [Display δ] {m : Machine κ β δ ρ} {s : Stage}

theorem stage_of_device {reason : DeviceFailure} (h : m.faultAt? s = some (.device reason)) :
    s = .display ∨ s = .sound := by
  cases s with
  | display => exact .inl rfl
  | sound => exact .inr rfl
  | fetch => simp [faultAt?] at h
  | decode | stack | access =>
    simp only [faultAt?] at h
    split at h <;> simp at h

variable [KeyInput κ] [ByteSource ρ]

/-- Devices that do not fail do not end a run. -/
theorem Calm.noDeviceFails (h : m.Calm) (keys : Nat → κ) (n : Nat) : m.NoDeviceFails keys n := by
  induction n with
  | zero =>
    intro reason m' he
    cases he
  | succ n ih =>
    intro reason m' he
    have hbefore : (after (runWith keys n) m).Calm :=
      runWith_induction (P := Calm) (fun m _ hm => ⟨hm.intact, hm.display, hm.sounder⟩)
        (fun _ => Calm.cycle) n h
    cases hr : runWith keys n m with
    | error f q =>
      rw [runWith_of_error hr (Nat.le_succ n)] at he
      exact ih reason m' (hr.trans he)
    | ok _ q =>
      have hnow : (m.entering keys n).Calm :=
        ⟨hbefore.intact, hbefore.display, hbefore.sounder⟩
      rw [runWith_succ hr] at he
      obtain ⟨s, hs, -⟩ := (cycle_eq_error_iff hnow.intact).mp he
      have hf := (firstFault?_eq_some_iff.mp hs).1
      obtain rfl | rfl := stage_of_device hf
      · rw [faultAt?, hnow.displayFailure?] at hf
        contradiction
      · rw [faultAt?, hnow.soundFailure?] at hf
        contradiction

end NoDeviceFails

/-! ### Machines that differ in their observers -/

/-- Two machines with the same processor, screen and random bytes. -/
structure SameInside (m : Machine κ β δ ρ) (m' : Machine κ β' δ' ρ) : Prop where
  cpu : m.cpu = m'.cpu
  screen : m.screen = m'.screen
  bytes : m.bytes = m'.bytes

/-- Two actions that end the same way. -/
inductive SameOutcome : EStateM.Result Fault (Machine κ β δ ρ) Unit →
    EStateM.Result Fault (Machine κ β' δ' ρ) Unit → Prop where
  | ok {m : Machine κ β δ ρ} {m' : Machine κ β' δ' ρ} :
    m.SameInside m' → SameOutcome (.ok () m) (.ok () m')
  | error {m : Machine κ β δ ρ} {m' : Machine κ β' δ' ρ} (f : Fault) :
    m.SameInside m' → SameOutcome (.error f m) (.error f m')

section Same

/-- Whatever it is watched by, a machine starts the same. -/
theorem sameInside_powerOn (keys : κ) (bytes : ρ) (sounder : β) (sounder' : β') (display : δ)
    (display' : δ') (tracing tracing' : Bool) (trace trace' : Trace) :
    (powerOn keys sounder display bytes tracing trace).SameInside
      (powerOn keys sounder' display' bytes tracing' trace') := ⟨rfl, rfl, rfl⟩

variable {m : Machine κ β δ ρ} {m' : Machine κ β' δ' ρ}

theorem SameInside.loadProgram (h : m.SameInside m') (program : List UInt8) :
    (after (loadProgram program) m).SameInside (after (loadProgram program) m') := by
  rw [after_loadProgram, after_loadProgram]
  split
  · exact h
  · exact ⟨congrArg (withProgram · program) h.cpu, h.screen, h.bytes⟩

variable [KeyInput κ]

/-- With the same keys as well, they have the same bare machine. -/
theorem SameInside.bare_eq (h : m.SameInside m') (hk : m.keys = m'.keys) : m.bare = m'.bare := by
  rw [bare, bare]
  simp only [h.cpu, h.bytes, hk, Machine.mk.injEq, and_true, true_and]
  exact congrArg (Video.mk · _) h.screen

theorem sameInside_of_bare (h : m.bare = m'.bare) : m.SameInside m' where
  cpu := congrArg Machine.cpu h
  screen := congrArg Machine.screen h
  bytes := congrArg Machine.bytes h

theorem sameOutcome_of_bareResult {r : EStateM.Result Fault (Machine κ β δ ρ) Unit}
    {r' : EStateM.Result Fault (Machine κ β' δ' ρ) Unit} (h : bareResult r = bareResult r') :
    SameOutcome r r' := by
  cases r with
  | ok _ m =>
    cases r' with
    | ok _ m' => exact .ok (sameInside_of_bare (EStateM.Result.ok.inj h).2)
    | error f m' => cases h
  | error f m =>
    cases r' with
    | ok _ m' => cases h
    | error f' m' =>
      obtain ⟨rfl, hm⟩ := EStateM.Result.error.inj h
      exact .error f (sameInside_of_bare hm)

end Same

/-! ### Two runs -/

variable [KeyInput κ] [Sounder β] [Display δ] [Sounder β'] [Display δ'] [ByteSource ρ]
variable {m : Machine κ β δ ρ} {m' : Machine κ β' δ' ρ}

/-- One cycle of two machines with the same keys. -/
theorem SameInside.cycle (h : m.SameInside m') (hk : m.keys = m'.keys) (hi : m.cpu.Intact)
    (hd : ∀ reason m₁, Machine.cycle m ≠ .error (.device reason) m₁)
    (hd' : ∀ reason m₁, Machine.cycle m' ≠ .error (.device reason) m₁) :
    SameOutcome (Machine.cycle m) (Machine.cycle m') ∧ m.asks = m'.asks := by
  have hi' : m'.cpu.Intact := h.cpu ▸ hi
  have hf := firstFault?_bare_of_no_device hi hd
  have hf' := firstFault?_bare_of_no_device hi' hd'
  have hbare := h.bare_eq hk
  constructor
  · refine sameOutcome_of_bareResult ?_
    rw [← cycle_bare_of_firstFault? hi hf, ← cycle_bare_of_firstFault? hi' hf', hbare]
  · rw [← asks_bare hf, ← asks_bare hf', hbare]

/-- What cycle `k` of a run asks of the devices, if the run gets there. -/
def asked (keys : Nat → κ) (k : Nat) (m : Machine κ β δ ρ) : List DeviceCall :=
  match runWith keys k m with
  | .ok _ _ => (m.entering keys k).asks
  | .error _ _ => []

/-- The devices of a run, from one cycle to the next. -/
theorem devices_runWith_succ {keys : Nat → κ} (hi : m.cpu.Intact) (k : Nat) :
    (after (runWith keys (k + 1)) m).devices =
      afterCalls (after (runWith keys k) m).devices (m.asked keys k) := by
  rw [asked]
  cases hr : runWith keys k m with
  | ok _ q =>
    have hstep : after (runWith keys (k + 1)) m = after Machine.cycle (m.entering keys k) := by
      rw [after, after, runWith_succ hr]
    rw [hstep]
    exact devices_after_cycle (entering_intact hi k)
  | error f q =>
    have hstop : after (runWith keys (k + 1)) m = after (runWith keys k) m := by
      rw [after, after, runWith_of_error hr (Nat.le_succ k), hr]
    rw [hstop]
    rfl

variable {keys : Nat → κ} {k n : Nat}

/-- One cycle more, and what it asks of the devices. -/
theorem sameOutcome_succ (h : SameOutcome (runWith keys k m) (runWith keys k m'))
    (hi : m.cpu.Intact) (hd : m.NoDeviceFails keys (k + 1)) (hd' : m'.NoDeviceFails keys (k + 1)) :
    SameOutcome (runWith keys (k + 1) m) (runWith keys (k + 1) m') ∧
      m.asked keys k = m'.asked keys k := by
  have hlt := Nat.lt_succ_self k
  have hnow : (m.entering keys k).cpu.Intact := entering_intact hi k
  rw [asked, asked]
  cases hr : runWith keys k m with
  | ok _ q =>
    cases hr' : runWith keys k m' with
    | ok _ q' =>
      rw [hr, hr'] at h
      obtain ⟨hsame⟩ := h
      have hentering : (m.entering keys k).SameInside (m'.entering keys k) := by
        rw [entering_of_ok hr, entering_of_ok hr']
        exact ⟨hsame.cpu, hsame.screen, hsame.bytes⟩
      rw [runWith_succ hr, runWith_succ hr']
      exact hentering.cycle rfl hnow (hd.cycle hlt hr) (hd'.cycle hlt hr')
    | error f q' =>
      rw [hr, hr'] at h
      cases h
  | error f q =>
    cases hr' : runWith keys k m' with
    | ok _ q' =>
      rw [hr, hr'] at h
      cases h
    | error f' q' =>
      rw [hr, hr'] at h
      rw [runWith_of_error hr (Nat.le_succ k), runWith_of_error hr' (Nat.le_succ k)]
      exact ⟨h, rfl⟩

theorem sameOutcome_runWith (h : m.SameInside m') (hi : m.cpu.Intact)
    (hd : m.NoDeviceFails keys k) (hd' : m'.NoDeviceFails keys k) :
    SameOutcome (runWith keys k m) (runWith keys k m') := by
  induction k with
  | zero => exact .ok h
  | succ k ih =>
    have hbefore := ih (hd.of_le (Nat.le_succ k)) (hd'.of_le (Nat.le_succ k))
    exact (sameOutcome_succ hbefore hi hd hd').1

/-- Observers do not influence the machine. After any number of cycles the two runs have the same
processor, screen and random bytes, or have failed with the same fault. In every cycle they have
asked their devices for the same things in the same order, and that is all that was done to the
devices. -/
theorem observers_do_not_matter (h : m.SameInside m') (hi : m.cpu.Intact)
    (hd : m.NoDeviceFails keys n) (hd' : m'.NoDeviceFails keys n) :
    (∀ k ≤ n, SameOutcome (runWith keys k m) (runWith keys k m')) ∧
    ∀ k < n,
      m.asked keys k = m'.asked keys k ∧
      (after (runWith keys (k + 1)) m).devices =
        afterCalls (after (runWith keys k) m).devices (m.asked keys k) ∧
      (after (runWith keys (k + 1)) m').devices =
        afterCalls (after (runWith keys k) m').devices (m'.asked keys k) := by
  have hi' : m'.cpu.Intact := h.cpu ▸ hi
  have hends : ∀ k ≤ n, SameOutcome (runWith keys k m) (runWith keys k m') := fun k hk =>
    sameOutcome_runWith h hi (hd.of_le hk) (hd'.of_le hk)
  refine ⟨hends, fun k hk => ?_⟩
  have hasked := (sameOutcome_succ (hends k (Nat.le_of_lt hk)) hi (hd.of_le hk) (hd'.of_le hk)).2
  exact ⟨hasked, devices_runWith_succ hi k, devices_runWith_succ hi' k⟩

/-- The tone is due in the cycle that draws a glyph, and the word after it is no instruction. One
machine is traced, with no room for a record, and its display keeps all screens. The other has idle
devices and is not traced. -/
theorem observers_do_not_matter_to_glyph :
    ∃ (m : Machine NoKeys BeepCounter Recorder ByteLoop) (m' : Machine NoKeys Idle Idle ByteLoop)
      (q : Machine NoKeys BeepCounter Recorder ByteLoop) (q' : Machine NoKeys Idle Idle ByteLoop)
      (s : Screen),
      m.tracing = true ∧ m'.tracing = false ∧
      runWith (fun _ => {}) 4 m = .error (.unknownWord 0x206 0x5001) q ∧
      runWith (fun _ => {}) 4 m' = .error (.unknownWord 0x206 0x5001) q' ∧
      m'.asked (fun _ => {}) 2 = [.present s, .beep] ∧
      q.devices = (⟨1, none⟩, Recorder.keepingAll.add s) := by
  obtain ⟨m, hm⟩ : ∃ m : Machine NoKeys BeepCounter Recorder ByteLoop,
      m = after (loadProgram [0x60, 0x02, 0xF0, 0x18, 0xD0, 0x05, 0x50, 0x01])
        (powerOn {} .fresh .keepingAll ⟨#[], 0⟩ true (.withLimit (some 0))) := ⟨_, rfl⟩
  obtain ⟨m', hm'⟩ : ∃ m' : Machine NoKeys Idle Idle ByteLoop,
      m' = after (loadProgram [0x60, 0x02, 0xF0, 0x18, 0xD0, 0x05, 0x50, 0x01])
        (powerOn {} {} {} ⟨#[], 0⟩ false (.withLimit none)) := ⟨_, rfl⟩
  have hc : m.Calm := by
    rw [hm]
    exact (calm_powerOn (BeepCounter.reliable rfl) (Recorder.steady rfl) _ _ _ _).loadProgram _
  have hc' : m'.Calm := by
    rw [hm']
    exact (calm_powerOn (fun _ => rfl) (fun _ _ => rfl) _ _ _ _).loadProgram _
  have hsame : m.SameInside m' := by
    rw [hm, hm']
    exact (sameInside_powerOn _ _ _ _ _ _ _ _ _ _).loadProgram _
  obtain ⟨hends, hcalls⟩ := observers_do_not_matter hsame hc.intact
    (hc.noDeviceFails (fun _ => {}) 4) (hc'.noDeviceFails (fun _ => {}) 4)
  obtain ⟨s, hdevices, h0, h1, h2, h3, hnone, hsome⟩ : ∃ s,
      m.devices = (.fresh, .keepingAll) ∧
      m.asked (fun _ => {}) 0 = [] ∧ m.asked (fun _ => {}) 1 = [] ∧
      m.asked (fun _ => {}) 2 = [.present s, .beep] ∧ m.asked (fun _ => {}) 3 = [] ∧
      (∀ k < 3, (m.entering (fun _ => {}) k).firstFault? = none) ∧
      (m.entering (fun _ => {}) 3).firstFault? = some (.decode, .unknownWord 0x206 0x5001) := by
    rw [hm]
    refine ⟨(after (runWith (fun _ => {}) 4) m).screen, rfl, ?_⟩
    rw [hm]
    decide +kernel
  have hr : runWith (fun _ => {}) 4 m = .error (.unknownWord 0x206 0x5001) _ :=
    (runWith_succ (runWith_of_firstFault? hc.intact hnone)).trans
      ((cycle_eq_error_iff (entering_intact hc.intact 3)).mpr ⟨_, hsome, rfl⟩)
  obtain ⟨q', hr'⟩ : ∃ q', runWith (fun _ => {}) 4 m' = .error (.unknownWord 0x206 0x5001) q' := by
    have hend := hends 4 (Nat.le_refl 4)
    rw [hr] at hend
    generalize runWith (fun _ => {}) 4 m' = r' at hend
    cases hend with
    | error f hsame => exact ⟨_, rfl⟩
  refine ⟨m, m', _, q', s, by rw [hm]; rfl, by rw [hm']; rfl, hr, hr', ?_, ?_⟩
  · rw [← (hcalls 2 (by decide)).1, h2]
  · have hlast := (hcalls 3 (by decide)).2.1
    rw [(hcalls 2 (by decide)).2.1, (hcalls 1 (by decide)).2.1, (hcalls 0 (by decide)).2.1, h0, h1,
      h2, h3] at hlast
    rw [after, hr] at hlast
    exact hlast.trans (congrArg (fun d => afterCalls d [.present s, .beep]) hdevices)

end Machine

end Chip8
