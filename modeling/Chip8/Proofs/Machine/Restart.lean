import Chip8.Proofs.Machine.Observer

/-!
# A reset forgets the past

What a reset leaves is a machine that was just built around the devices as they are by then. So
whatever was done to the machine before, nothing of it is left but what the devices remember.

To say the same of the runs that follow, a machine that was reset is compared with one that was
built with other devices. A program can tell them apart by the keys and by the random bytes, and by
nothing else that is read. The tone and the display are only ever asked to do something. But either
of them may refuse, and that ends a cycle early. So there are three conditions: the keys look the
same in every cycle, the same bytes are still to be dealt out, and when a device refuses in one of
the runs, it does in the other. The last one is met by the same devices, and by any others as long
as nothing is refused. A cycle that fails does not end a run: the next one is run on the machine
that was left behind.

## Main definitions

* `dealt` — the bytes that a source has still to deal out
* `Machine.seen` — a bare machine with these bytes, which is all that a program can see
* `Machine.Alike` — two machines that a program cannot tell apart
* `Machine.pressOn` — a run that goes on after failures
* `Machine.SameRefusals`, `Machine.SameRun` — that the devices refuse the same in two runs, and that
  the runs go the same way

## Main results

* `seen_after_cycle` — what a cycle makes of what can be seen
* `Alike.cycle`, `Alike.pressOn` — alike machines stay alike
* `Alike.sameRefusals` — alike machines with the same devices are refused the same
* `reset_forgets` — a machine after a reset
-/

namespace Chip8

/-! ### Sources of bytes -/

/-- The bytes that a source deals out from now on, one after the other. -/
def dealt {ρ : Type} [ByteSource ρ] (source : ρ) : Nat → UInt8
  | 0 => (ByteSource.draw source).1
  | n + 1 => dealt (ByteSource.draw source).2 n

/-- A source that is known by the bytes it deals out. -/
structure ByteStream where
  byte : Nat → UInt8

instance : ByteSource ByteStream := ⟨fun s => (s.byte 0, ⟨fun n => s.byte (n + 1)⟩)⟩

namespace Machine

open Processor

variable {κ β δ ρ κ' β' δ' ρ' : Type}

/-! ### What can be seen of a machine -/

section Seen

variable {m : Machine κ β δ ρ} [KeyInput κ] [ByteSource ρ]

/-- What a program can see of a machine. -/
def seen (m : Machine κ β δ ρ) : BareMachine ByteStream where
  cpu := m.cpu
  video := ⟨m.screen, {}⟩
  keys := keyView m.keys
  sounder := {}
  bytes := ⟨dealt m.bytes⟩
  tracing := false
  trace := .withLimit none

theorem seen_record (before : Processor) (w : Option Word) (failure : Option Fault) :
    (m.record before w failure).seen = m.seen := by
  rw [record_eq]
  rfl

theorem instruction?_seen (m : Machine κ β δ ρ) : m.seen.instruction? = m.instruction? := rfl

theorem shown?_seen (m : Machine κ β δ ρ) : m.seen.shown? = m.shown? := rfl

theorem soundSet_seen (m : Machine κ β δ ρ) : m.seen.soundSet = m.soundSet := rfl

theorem bytesAfter_seen (m : Machine κ β δ ρ) : m.seen.bytesAfter = ⟨dealt m.bytesAfter⟩ := by
  rw [bytesAfter, bytesAfter, instruction?_seen]
  split <;> rfl

variable [Display δ]

theorem videoAfter_seen (m : Machine κ β δ ρ) : m.seen.videoAfter = ⟨m.videoAfter.screen, {}⟩ :=
  videoAfter_bare m

variable [Sounder β]

theorem seen_settled (m : Machine κ β δ ρ) : m.settled.seen = m.seen.settled := by
  change { m.seen.settled with
    video := ⟨m.videoAfter.screen, {}⟩, bytes := ⟨dealt m.bytesAfter⟩ } = m.seen.settled
  rw [← videoAfter_seen, ← bytesAfter_seen]
  rfl

theorem seen_completed (m : Machine κ β δ ρ) : m.completed.seen = m.seen.completed := by
  rw [completed, seen_record]
  change m.settled.seen.countCycle = m.seen.settled.countCycle
  rw [seen_settled]

theorem seen_leftAt (m : Machine κ β δ ρ) (f : Fault) (s : Stage) :
    (m.leftAt f s).seen = m.seen.leftAt f s := by
  cases s with
  | fetch | decode | stack | access =>
    rw [leftAt, seen_record]
    rfl
  | display =>
    rw [leftAt, seen_record]
    change { m.seen.past with video := ⟨m.videoAfter.screen, {}⟩ } = m.seen.leftAt f .display
    rw [← videoAfter_seen]
    rfl
  | sound => exact seen_settled m

/-- What can be seen after a cycle comes of what can be seen before it, and of where it fails. -/
theorem seen_after_cycle (h : m.cpu.Intact) :
    (after cycle m).seen =
      match m.firstFault? with
      | some (s, f) => m.seen.leftAt f s
      | none => m.seen.completed := by
  rw [after, cycle_eq h]
  cases m.firstFault? with
  | none => exact seen_completed m
  | some sf => exact seen_leftAt m sf.2 sf.1

end Seen

/-! ### Refusals of devices -/

section Refusals

variable {m : Machine κ β δ ρ} {m' : Machine κ' β' δ' ρ'}

/-- Why an action fails, if it does. -/
def failure? {α : Type} (a : Action κ β δ ρ α) (m : Machine κ β δ ρ) : Option Fault :=
  match a m with
  | .ok _ _ => none
  | .error f _ => some f

variable [Sounder β] [Display δ] [Sounder β'] [Display δ']

/-- The device that ends the cycle, and why, if one does. -/
def refusal? (m : Machine κ β δ ρ) : Option (Stage × Fault) :=
  m.firstFault?.filter fun sf => sf.1 = .display ∨ sf.1 = .sound

/-- A fault before the display is no refusal, and any other is. -/
theorem refusal?_cases (m : Machine κ β δ ρ) :
    (∃ s f, stages.idxOf s < stages.idxOf .display ∧ m.firstFault? = some (s, f)) ∨
      m.refusal? = m.firstFault? := by
  rw [refusal?]
  cases m.firstFault? with
  | none => exact .inr rfl
  | some sf =>
    obtain ⟨s, f⟩ := sf
    cases s with
    | fetch | decode | stack | access => exact .inl ⟨_, f, by decide, rfl⟩
    | display | sound => exact .inr rfl

variable [KeyInput κ] [ByteSource ρ] [KeyInput κ'] [ByteSource ρ']

theorem failure?_cycle (h : m.cpu.Intact) :
    failure? cycle m = m.firstFault?.map Prod.snd := by
  rw [failure?, cycle_eq h]
  cases m.firstFault? <;> rfl

theorem faultAt?_of_seen {s : Stage} (h : m.seen = m'.seen)
    (hs : stages.idxOf s < stages.idxOf .display) : m.faultAt? s = m'.faultAt? s := by
  have hsame : m.seen.faultAt? s = m'.seen.faultAt? s := by rw [h]
  cases s with
  | fetch | decode | stack | access => exact hsame
  | display | sound => exact absurd hs (by decide)

/-- Up to the display, whether and how a cycle fails can be seen beforehand. -/
theorem firstFault?_of_seen {s : Stage} {f : Fault} (h : m.seen = m'.seen)
    (hs : stages.idxOf s < stages.idxOf .display) (hf : m.firstFault? = some (s, f)) :
    m'.firstFault? = some (s, f) := by
  obtain ⟨hhere, hbefore⟩ := firstFault?_eq_some_iff.mp hf
  refine firstFault?_eq_some_iff.mpr ⟨(faultAt?_of_seen h hs).symm.trans hhere, fun t ht => ?_⟩
  rw [← faultAt?_of_seen h (Nat.lt_trans ht hs), hbefore t ht]

/-- With the same to be seen and the same refusals, two cycles fail alike. -/
theorem firstFault?_eq_of_refusal (h : m.seen = m'.seen) (hr : m.refusal? = m'.refusal?) :
    m.firstFault? = m'.firstFault? := by
  obtain ⟨s, f, hs, hf⟩ | hm := refusal?_cases m
  · rw [hf, firstFault?_of_seen h hs hf]
  · obtain ⟨s, f, hs, hf⟩ | hm' := refusal?_cases m'
    · rw [hf, firstFault?_of_seen h.symm hs hf]
    · rw [← hm, ← hm', hr]

/-- The same devices refuse the same. -/
theorem refusal?_of_devices {m' : Machine κ' β δ ρ'} (h : m.seen = m'.seen)
    (hd : m.devices = m'.devices) : m.refusal? = m'.refusal? := by
  have hshown : m.shown? = m'.shown? := by rw [← shown?_seen m, h, shown?_seen]
  have hsound : m.soundSet = m'.soundSet := by rw [← soundSet_seen m, h, soundSet_seen]
  have hall : m.faultAt? = m'.faultAt? := by
    funext s
    cases s with
    | fetch | decode | stack | access => exact faultAt?_of_seen h (by decide)
    | display =>
      have hdisplay : m.display = m'.display := congrArg Prod.snd hd
      rw [faultAt?, faultAt?, displayFailure?, displayFailure?, hshown, hdisplay]
    | sound =>
      have hsounder : m.sounder = m'.sounder := congrArg Prod.fst hd
      rw [faultAt?, faultAt?, soundFailure?, soundFailure?, hsound, hsounder]
  rw [refusal?, refusal?, firstFault?, firstFault?, hall]

end Refusals

/-! ### Machines that are alike -/

section Alike

/-- Two machines that a program cannot tell apart, as long as the keys look the same. -/
structure Alike [ByteSource ρ] [ByteSource ρ'] (m : Machine κ β δ ρ)
    (m' : Machine κ' β' δ' ρ') : Prop where
  cpu : m.cpu = m'.cpu
  screen : m.screen = m'.screen
  bytes : dealt m.bytes = dealt m'.bytes

variable {m : Machine κ β δ ρ} {m' : Machine κ' β' δ' ρ'}
variable [ByteSource ρ] [ByteSource ρ']

theorem alike_powerOn {keys : κ} {sounder : β} {display : δ} {bytes : ρ} {keys' : κ'}
    {sounder' : β'} {display' : δ'} {bytes' : ρ'} {tracing tracing' : Bool} {trace trace' : Trace}
    (h : dealt bytes = dealt bytes') :
    (powerOn keys sounder display bytes tracing trace).Alike
      (powerOn keys' sounder' display' bytes' tracing' trace') := ⟨rfl, rfl, h⟩

theorem Alike.loadProgram (h : m.Alike m') (program : List UInt8) :
    failure? (loadProgram program) m = failure? (loadProgram program) m' ∧
      (after (loadProgram program) m).Alike (after (loadProgram program) m') := by
  rw [failure?, failure?, loadProgram_eq, loadProgram_eq, after_loadProgram, after_loadProgram]
  by_cases hl : maxProgramSize < program.length
  · simp only [if_pos hl]
    exact ⟨trivial, h⟩
  · simp only [if_neg hl]
    exact ⟨trivial, congrArg (withProgram · program) h.cpu, h.screen, h.bytes⟩

variable [KeyInput κ] [KeyInput κ']

theorem Alike.seen_eq (h : m.Alike m') (hk : keyView m.keys = keyView m'.keys) :
    m.seen = m'.seen := by
  rw [seen, seen, h.cpu, h.screen, h.bytes, hk]

theorem alike_of_seen (h : m.seen = m'.seen) : m.Alike m' where
  cpu := congrArg Machine.cpu h
  screen := congrArg Machine.screen h
  bytes := congrArg (fun s : BareMachine ByteStream => s.bytes.byte) h

variable [Sounder β] [Display δ] [Sounder β'] [Display δ']

/-- A cycle of two machines that are alike. They fail alike, use their devices alike, and are still
alike afterwards. -/
theorem Alike.cycle (h : m.Alike m') (hi : m.cpu.Intact) (hk : keyView m.keys = keyView m'.keys)
    (hr : m.refusal? = m'.refusal?) :
    failure? cycle m = failure? cycle m' ∧ m.asks = m'.asks ∧
      (after cycle m).Alike (after cycle m') := by
  have hi' : m'.cpu.Intact := h.cpu ▸ hi
  have hseen := h.seen_eq hk
  have hf := firstFault?_eq_of_refusal hseen hr
  refine ⟨?_, ?_, alike_of_seen ?_⟩
  · rw [failure?_cycle hi, failure?_cycle hi', hf]
  · rw [asks, asks, hf, ← shown?_seen m, ← soundSet_seen m, hseen, shown?_seen, soundSet_seen]
  · rw [seen_after_cycle hi, seen_after_cycle hi', hf, hseen]

/-! ### Runs -/

section Runs

variable {m : Machine κ β δ ρ}

/-- The machine after a number of cycles. Each of them is run even if one before it has failed.
Cycle `k` finds the keys `keys k`. -/
def pressOn (keys : Nat → κ) : Nat → Machine κ β δ ρ → Machine κ β δ ρ
  | 0, m => m
  | n + 1, m => after Machine.cycle ((pressOn keys n m).withKeys (keys n))

/-- The machine that cycle `k` begins with. -/
def atCycle (keys : Nat → κ) (k : Nat) (m : Machine κ β δ ρ) : Machine κ β δ ρ :=
  (m.pressOn keys k).withKeys (keys k)

theorem pressOn_intact (h : m.cpu.Intact) (keys : Nat → κ) (n : Nat) :
    (m.pressOn keys n).cpu.Intact := by
  induction n with
  | zero => exact h
  | succ n ih => exact cycle_intact (m := m.atCycle keys n) ih

/-- The devices of a run, from one cycle to the next. -/
theorem devices_pressOn_succ (h : m.cpu.Intact) (keys : Nat → κ) (k : Nat) :
    (m.pressOn keys (k + 1)).devices =
      afterCalls (m.pressOn keys k).devices (m.atCycle keys k).asks :=
  devices_after_cycle (m := m.atCycle keys k) (pressOn_intact h keys k)

end Runs

variable {keys : Nat → κ} {keys' : Nat → κ'} {n : Nat}

/-- In the first cycles of two runs, the devices refuse the same. -/
def SameRefusals (keys : Nat → κ) (keys' : Nat → κ') (n : Nat) (m : Machine κ β δ ρ)
    (m' : Machine κ' β' δ' ρ') : Prop :=
  ∀ k < n, (m.atCycle keys k).refusal? = (m'.atCycle keys' k).refusal?

/-- Two runs that go the same way. After so many cycles they have come to the same processor and
screen. Every cycle has failed in both or in neither, with the same fault, and has asked the devices
for the same things, which is all that was done to them. -/
structure SameRun (keys : Nat → κ) (keys' : Nat → κ') (n : Nat) (m : Machine κ β δ ρ)
    (m' : Machine κ' β' δ' ρ') : Prop where
  cpu : (m.pressOn keys n).cpu = (m'.pressOn keys' n).cpu
  screen : (m.pressOn keys n).screen = (m'.pressOn keys' n).screen
  failure : ∀ k < n,
    failure? Machine.cycle (m.atCycle keys k) = failure? Machine.cycle (m'.atCycle keys' k)
  asks : ∀ k < n, (m.atCycle keys k).asks = (m'.atCycle keys' k).asks
  devices : ∀ k < n, (m.pressOn keys (k + 1)).devices =
    afterCalls (m.pressOn keys k).devices (m.atCycle keys k).asks
  devices' : ∀ k < n, (m'.pressOn keys' (k + 1)).devices =
    afterCalls (m'.pressOn keys' k).devices (m'.atCycle keys' k).asks

/-- One cycle more. -/
theorem Alike.pressOn_succ (h : (m.pressOn keys n).Alike (m'.pressOn keys' n))
    (hi : m.cpu.Intact) (hk : keyView (keys n) = keyView (keys' n))
    (hr : (m.atCycle keys n).refusal? = (m'.atCycle keys' n).refusal?) :
    failure? Machine.cycle (m.atCycle keys n) = failure? Machine.cycle (m'.atCycle keys' n) ∧
      (m.atCycle keys n).asks = (m'.atCycle keys' n).asks ∧
      (m.pressOn keys (n + 1)).Alike (m'.pressOn keys' (n + 1)) :=
  have hnow : (m.atCycle keys n).Alike (m'.atCycle keys' n) := ⟨h.cpu, h.screen, h.bytes⟩
  hnow.cycle (pressOn_intact hi keys n) hk hr

/-- Machines that are alike stay alike. -/
theorem Alike.pressOn (h : m.Alike m') (hi : m.cpu.Intact)
    (hk : ∀ k, keyView (keys k) = keyView (keys' k)) (hr : SameRefusals keys keys' n m m') :
    (m.pressOn keys n).Alike (m'.pressOn keys' n) := by
  induction n with
  | zero => exact h
  | succ n ih =>
    have hnow := ih fun k hlt => hr k (Nat.lt_succ_of_lt hlt)
    exact (hnow.pressOn_succ hi (hk n) (hr n (Nat.lt_succ_self n))).2.2

/-- Machines that are alike and have the same devices are refused the same by them, since they go on
asking them for the same things. -/
theorem Alike.sameRefusals {m' : Machine κ' β δ ρ'} (h : m.Alike m')
    (hd : m.devices = m'.devices) (hi : m.cpu.Intact)
    (hk : ∀ k, keyView (keys k) = keyView (keys' k)) (n : Nat) :
    SameRefusals keys keys' n m m' := by
  have hi' : m'.cpu.Intact := h.cpu ▸ hi
  have hrefusal : ∀ k, (m.pressOn keys k).Alike (m'.pressOn keys' k) →
      (m.pressOn keys k).devices = (m'.pressOn keys' k).devices →
      (m.atCycle keys k).refusal? = (m'.atCycle keys' k).refusal? := by
    intro k hnow hdevices
    have hentering : (m.atCycle keys k).Alike (m'.atCycle keys' k) :=
      ⟨hnow.cpu, hnow.screen, hnow.bytes⟩
    exact refusal?_of_devices (hentering.seen_eq (hk k)) hdevices
  have hboth : ∀ k, (m.pressOn keys k).Alike (m'.pressOn keys' k) ∧
      (m.pressOn keys k).devices = (m'.pressOn keys' k).devices := by
    intro k
    induction k with
    | zero => exact ⟨h, hd⟩
    | succ k ih =>
      obtain ⟨hnow, hdevices⟩ := ih
      obtain ⟨-, hasks, hnext⟩ := hnow.pressOn_succ hi (hk k) (hrefusal k hnow hdevices)
      refine ⟨hnext, ?_⟩
      rw [devices_pressOn_succ hi, devices_pressOn_succ hi', hdevices, hasks]
  exact fun k _ => hrefusal k (hboth k).1 (hboth k).2

theorem Alike.sameRun (h : m.Alike m') (hi : m.cpu.Intact)
    (hk : ∀ k, keyView (keys k) = keyView (keys' k)) (hr : SameRefusals keys keys' n m m') :
    SameRun keys keys' n m m' := by
  have hi' : m'.cpu.Intact := h.cpu ▸ hi
  have hend := h.pressOn hi hk hr
  have hcycle := fun k hlt =>
    (h.pressOn hi hk fun j hj => hr j (Nat.lt_trans hj hlt)).pressOn_succ hi (hk k) (hr k hlt)
  exact {
    cpu := hend.cpu
    screen := hend.screen
    failure := fun k hlt => (hcycle k hlt).1
    asks := fun k hlt => (hcycle k hlt).2.1
    devices := fun k _ => devices_pressOn_succ hi keys k
    devices' := fun k _ => devices_pressOn_succ hi' keys' k }

end Alike

/-! ### After a reset -/

/-- Loading a program uses no device. -/
theorem devices_loadProgram (m : Machine κ β δ ρ) (program : List UInt8) :
    (after (loadProgram program) m).devices = m.devices := by
  rw [after_loadProgram]
  split <;> rfl

/-- A reset leaves a machine that was just built, around the devices as they are by then. -/
theorem reset_eq_powerOn [Display δ] (m : Machine κ β δ ρ) :
    after reset m = powerOn m.keys m.sounder (Display.present .blank m.display).device m.bytes
      m.tracing (.withLimit m.trace.limit) := by
  have hvideo := video_reset (m := m)
  obtain ⟨v, hv⟩ := after_reset m
  rw [hv] at hvideo ⊢
  obtain rfl : v = _ := hvideo
  rfl

variable [KeyInput κ] [Sounder β] [Display δ] [ByteSource ρ]
variable [KeyInput κ'] [Sounder β'] [Display δ'] [ByteSource ρ']

/-- A reset forgets the past. Whatever a machine has been through, and even if the display fails
while it is reset, it is afterwards a machine that was just built around the same devices. A program
that fits is loaded. It runs as on any machine that was just built, for as many cycles as one likes,
if the keys look the same and the same random bytes are dealt out. The tone and the display have to
be the same as well, or at least refuse the same in the two runs. -/
theorem reset_forgets (m : Machine κ β δ ρ) (program : List UInt8) (first : κ') (sounder : β')
    (display : δ') (bytes : ρ') (tracing : Bool) (trace : Trace) (keys : Nat → κ)
    (keys' : Nat → κ') (hkeys : ∀ k, keyView (keys k) = keyView (keys' k))
    (hbytes : dealt m.bytes = dealt bytes) :
    after reset m = powerOn m.keys m.sounder (Display.present .blank m.display).device m.bytes
      m.tracing (.withLimit m.trace.limit) ∧
    (program.length ≤ maxProgramSize → failure? (loadProgram program) (after reset m) = none) ∧
    (∀ n, SameRun keys keys' n (after (loadProgram program) (after reset m))
      (after (loadProgram program) (powerOn first m.sounder
        (Display.present .blank m.display).device bytes tracing trace))) ∧
    failure? (loadProgram program) (after reset m) =
      failure? (loadProgram program) (powerOn first sounder display bytes tracing trace) ∧
    ∀ n,
      SameRefusals keys keys' n (after (loadProgram program) (after reset m))
        (after (loadProgram program) (powerOn first sounder display bytes tracing trace)) →
      SameRun keys keys' n (after (loadProgram program) (after reset m))
        (after (loadProgram program) (powerOn first sounder display bytes tracing trace)) := by
  have hreset := reset_eq_powerOn m
  have hintact : (after (loadProgram program) (after reset m)).cpu.Intact := by
    refine loadProgram_intact ?_ program
    rw [cpu_reset]
    exact intact_powerOn
  have hsame : (after reset m).Alike (powerOn first m.sounder
      (Display.present .blank m.display).device bytes tracing trace) := by
    rw [hreset]
    exact alike_powerOn hbytes
  have hother : (after reset m).Alike (powerOn first sounder display bytes tracing trace) := by
    rw [hreset]
    exact alike_powerOn hbytes
  obtain ⟨-, hrun⟩ := hsame.loadProgram program
  obtain ⟨hload, hloaded⟩ := hother.loadProgram program
  refine ⟨hreset, fun hfits => ?_, fun n => ?_, hload, fun n hr => hloaded.sameRun hintact hkeys hr⟩
  · rw [failure?, loadProgram_eq, if_neg (Nat.not_lt.mpr hfits)]
  · refine hrun.sameRun hintact hkeys (hrun.sameRefusals ?_ hintact hkeys n)
    rw [devices_loadProgram, devices_loadProgram, hreset]
    rfl

/-- A machine is reset after its window is gone and one of its cycles has failed. Until then it has
drawn a random byte and a glyph, and made a call. The program that is then loaded begins with a word
that is no instruction, and goes on to the second random byte. It does so on this machine and on
another that has no display at all. -/
theorem reset_forgets_of_failed_run :
    ∃ (m : Machine NoKeys BeepCounter Recorder ByteLoop) (m' : Machine NoKeys Idle Idle ByteLoop),
      Reachable m ∧ m.screen ≠ .blank ∧ m.cpu.sp = 1 ∧
      failure? reset m = some (.device (.broken "window gone")) ∧
      SameRun (fun _ => {}) (fun _ => {}) 2
        (after (loadProgram [0x50, 0x01, 0xC0, 0xFF]) (after reset m)) m' ∧
      failure? cycle m' = some (.unknownWord 0x200 0x5001) ∧
      (m'.pressOn (fun _ => {}) 2).cpu.reg 0 = 9 := by
  obtain ⟨m, hm⟩ : ∃ m : Machine NoKeys BeepCounter Recorder ByteLoop,
      m = after (run 4) (after (loadProgram
          [0xC0, 0xFF, 0xD0, 0x05, 0x22, 0x08, 0x00, 0x00, 0x50, 0x01])
        (powerOn {} .fresh { Recorder.fresh with capacity := some 1 } ⟨#[7, 9], 0⟩ false
          (.withLimit none))) := ⟨_, rfl⟩
  have hreached : Reachable m := by
    rw [hm]
    exact .run 4 (.loadProgram _ (.powerOn _ _ _ _ _ _))
  obtain ⟨m', hm'⟩ : ∃ m' : Machine NoKeys Idle Idle ByteLoop,
      m' = after (loadProgram [0x50, 0x01, 0xC0, 0xFF])
        (powerOn {} {} {} m.bytes false (.withLimit none)) := ⟨_, rfl⟩
  obtain ⟨-, -, -, -, hrun⟩ := reset_forgets m [0x50, 0x01, 0xC0, 0xFF] NoKeys.mk Idle.mk Idle.mk
    m.bytes false (.withLimit none) (fun _ => NoKeys.mk) (fun _ => NoKeys.mk) (fun _ => rfl) rfl
  rw [← hm'] at hrun
  obtain ⟨hrefusals, hscreen, hsp, hreset, hfailure, hbyte⟩ :
      SameRefusals (fun _ => {}) (fun _ => {}) 2
        (after (loadProgram [0x50, 0x01, 0xC0, 0xFF]) (after reset m)) m' ∧
      m.screen ≠ .blank ∧ m.cpu.sp = 1 ∧
      failure? reset m = some (.device (.broken "window gone")) ∧
      failure? cycle m' = some (.unknownWord 0x200 0x5001) ∧
      (m'.pressOn (fun _ => {}) 2).cpu.reg 0 = 9 := by
    rw [hm', hm]
    unfold SameRefusals
    decide +kernel
  exact ⟨m, m', hreached, hscreen, hsp, hreset, hrun 2 hrefusals, hfailure, hbyte⟩

end Machine

end Chip8
