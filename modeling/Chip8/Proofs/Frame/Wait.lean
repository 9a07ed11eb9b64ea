import Chip8.Proofs.Frame.Play
import Chip8.Proofs.Machine.Timer
import Chip8.Proofs.Word.Pattern

/-!
# Waiting for a key

A machine that waits for a key has no state of its own for it. The cycle goes past the word and back
to it, so that the next one finds the same word again. Here it is shown that this amounts to
waiting: through any number of frames nothing changes but the timers and the count of the cycles,
until a frame comes that runs a cycle while some key was let go. Then the lowest such key goes into
`Vx`, and the machine goes on behind the word.

That a key is pressed is not what the machine waits for. A key counts from when it was down at the
end of a frame with cycles, and is up now.

The tone may sound while the machine waits, so it has to be one that does not fail.

## Main results

* `cycle_of_waiting`, `cycle_of_released` — one cycle, without and with a key that was let go
* `Waits.run` — cycles of one frame
* `wait_for_key` — frames
-/

namespace Chip8

/-! ### Keys that were let go -/

namespace Keypad

/-- Whether a key was down when the last input frame was closed, and is up. -/
def LetGo (p : Keypad) (k : Key) : Prop :=
  p.before.getLsbD k = true ∧ p.isDown k = false

instance (p : Keypad) (k : Key) : Decidable (p.LetGo k) :=
  inferInstanceAs (Decidable (_ ∧ _))

theorem wasReleased_iff (p : Keypad) (k : Key) : p.wasReleased k = true ↔ p.LetGo k := by
  rw [wasReleased_eq, LetGo, Bool.and_eq_true, Bool.not_eq_true']

end Keypad

namespace Machine

variable {β δ ρ : Type} {m : Machine Keypad β δ ρ}

theorem letGo?_eq_none_iff : m.letGo? = none ↔ ∀ k, ¬m.keys.LetGo k := by
  rw [letGo?, Fin.find?_eq_none_iff]
  exact forall_congr' fun k => by rw [← Keypad.wasReleased_iff, Bool.not_eq_true]; rfl

/-- The lowest key that was let go is the one that is found. -/
theorem letGo?_eq_some {k : Key} (hk : m.keys.LetGo k) (hlow : ∀ j < k, ¬m.keys.LetGo j) :
    m.letGo? = some k := by
  rw [letGo?, Fin.find?_eq_some_iff]
  refine ⟨(Keypad.wasReleased_iff _ k).mpr hk, fun j hj => ?_⟩
  exact Bool.eq_false_iff.mpr fun hw => hlow j hj ((Keypad.wasReleased_iff _ j).mp hw)

end Machine

/-! ### Tones that do not fail -/

section Reliable

variable {β : Type} [Sounder β] {b : β}

/-- A tone after it was sounded a number of times. -/
def sounded (b : β) : Nat → β
  | 0 => b
  | n + 1 => sounded (Sounder.beep b).device n

/-- Whether a tone does not fail, however often it is sounded. -/
def Reliable (b : β) : Prop := ∀ n, (Sounder.beep (sounded b n)).failure = none

theorem Reliable.now (h : Reliable b) : (Sounder.beep b).failure = none := h 0

theorem Reliable.beep (h : Reliable b) : Reliable (Sounder.beep b).device := fun n => h (n + 1)

end Reliable

/-- A counter that works goes on working. -/
theorem BeepCounter.reliable {b : BeepCounter} (h : b.failure = none) : Reliable b := by
  have hkept : ∀ n, ∀ b : BeepCounter, (sounded b n).failure = b.failure := by
    intro n
    induction n with
    | zero => exact fun _ => rfl
    | succ n ih => exact fun b => ih _
  exact fun n => (hkept n b).trans h

namespace Machine

open Processor

variable {κ β δ ρ : Type} {m m₀ m' : Machine κ β δ ρ}

/-! ### One cycle -/

/-- The word is all in memory, since its second byte is not zero. -/
theorem pc_of_waitKey (h : m.cpu.Intact) (hi : m.instruction? = some .waitKey) :
    m.cpu.pc ≤ 4094 := by
  have hnn : m.cpu.word.nn = 0x0A := (Word.decode_eq_some_iff.mp hi).2
  have hpc := h.pc
  by_cases hout : m.cpu.memory.size ≤ m.cpu.pc.toNat + 1
  · have hzero : m.cpu.byte (m.cpu.pc.toNat + 1) = 0 := by
      rw [byte, Array.getElem?_eq_none hout, Option.getD_none]
    simp only [word, hzero, Word.nn, Word.field, UInt8.toNat_zero] at hnn
    omega
  · have hsize : m.cpu.memory.size = 4096 := h.memory
    omega

theorem delaySet_of_waitKey (hi : m.instruction? = some .waitKey) : m.delaySet = m.cpu.delay :=
  delaySet_of_ne (by simp [hi])

theorem soundSet_of_waitKey (hi : m.instruction? = some .waitKey) : m.soundSet = m.cpu.sound :=
  soundSet_of_ne (by simp [hi])

/-- A cycle that waits has no fault, as long as the tone does not fail. -/
theorem firstFault?_of_waitKey [Sounder β] [Display δ] (h : m.cpu.Intact)
    (hi : m.instruction? = some .waitKey) (hb : Reliable m.sounder) : m.firstFault? = none := by
  refine firstFault?_eq_none_iff.mpr fun s => ?_
  cases s with
  | fetch => exact faultAt?_fetch_eq_none_iff.mpr (pc_of_waitKey h hi)
  | decode => simp [faultAt?, hi]
  | stack => simp [faultAt?, hi]
  | access => simp [faultAt?, extent?, hi]
  | display => simp [faultAt?, displayFailure?, shown?, hi]
  | sound => simp [faultAt?, soundFailure?, hb.now]

variable [KeyInput κ] [ByteSource ρ]

/-- Carrying out the word changes `Vx` and the program counter at most. -/
theorem cpuAfter_of_waitKey (hi : m.instruction? = some .waitKey) :
    m.cpuAfter =
      match m.letGo? with
      | some k => { m.cpu with
          registers := m.cpu.registers.setIfInBounds m.cpu.word.x (UInt8.ofNat k)
          pc := m.cpu.pc + 2 }
      | none => m.cpu := by
  have hstack : m.cpu.stack.mapIdx m.slotAfter = m.cpu.stack := stack_of_ne (by simp [hi])
  have hmemory : m.cpu.memory.mapIdx m.byteAfter = m.cpu.memory :=
    memory_of_nil (by rw [stored, hi])
  have hflag : m.flag? = none := by rw [flag?, hi]
  have hload : m.instruction? ≠ some .load := by simp [hi]
  rw [cpuAfter, hstack, hmemory, delaySet_of_waitKey hi, soundSet_of_waitKey hi]
  cases hk : m.letGo? with
  | none =>
    rw [registers_of_none (by simp [result?, hi, hk]) hflag hload]
    simp [indexAfter, spAfter, pcAfter, hi, hk]
  | some k =>
    rw [registers_of_result (b := UInt8.ofNat k) (by simp [result?, hi, hk]) hflag hload]
    simp [indexAfter, spAfter, pcAfter, hi, hk]

variable [Sounder β] [Display δ]

/-- What a completed cycle leaves of the screen, the random bytes and the tone. -/
theorem devices_completed_of_waitKey (hi : m.instruction? = some .waitKey) :
    m.completed.video = m.video ∧ m.completed.bytes = m.bytes ∧
      m.completed.sounder =
        if m.cpu.sound = 1 then (Sounder.beep m.sounder).device else m.sounder := by
  refine ⟨?_, ?_, ?_⟩
  · rw [video_completed, videoAfter, shown?, hi]
  · rw [bytes_completed, bytesAfter, hi]
  · rw [sounder_completed, sounderAfter, soundSet_of_waitKey hi]

/-- A cycle that finds no key passes the time and nothing else. -/
theorem cycle_of_waiting (h : m.cpu.Intact) (hi : m.instruction? = some .waitKey)
    (hb : Reliable m.sounder) (hk : m.letGo? = none) :
    cycle m = .ok () m.completed ∧
      m.completed.cpu = { m.cpu with
        delay := max 0 (m.cpu.delay - 1), sound := max 0 (m.cpu.sound - 1),
        cycles := m.cpu.cycles + 1 } := by
  refine ⟨(cycle_eq_ok_iff h).mpr ⟨firstFault?_of_waitKey h hi hb, rfl⟩, ?_⟩
  rw [cpu_completed, cpuAfter_of_waitKey hi, hk, delaySet_of_waitKey hi, soundSet_of_waitKey hi]

/-- A cycle that finds a key puts it into `Vx` and goes on. -/
theorem cycle_of_released {k : Key} (h : m.cpu.Intact) (hi : m.instruction? = some .waitKey)
    (hb : Reliable m.sounder) (hk : m.letGo? = some k) :
    cycle m = .ok () m.completed ∧
      (m.completed.cpu.reg m.cpu.word.x).toNat = k ∧ m.completed.cpu.pc = m.cpu.pc + 2 :=
  ⟨(cycle_eq_ok_iff h).mpr ⟨firstFault?_of_waitKey h hi hb, rfl⟩, completed_of_letGo h hi hk⟩

/-- Cycles do not let keys go. -/
theorem letGo?_run (n : Nat) (m : Machine κ β δ ρ) : (after (run n) m).letGo? = m.letGo? := by
  rw [letGo?, keys_run]
  rfl

/-! ### Cycles of one frame -/

section Waits

variable {κ β δ ρ : Type} [Sounder β] {m₀ m : Machine κ β δ ρ}

/-- A machine that waits, compared with an earlier one: the processor differs in the timers and in
the count of the cycles at most, screen and random bytes are the same, and the tone still works. -/
structure Waits (m₀ m : Machine κ β δ ρ) : Prop where
  cpu : m.cpu = { m₀.cpu with
    delay := m.cpu.delay, sound := m.cpu.sound, cycles := m.cpu.cycles }
  video : m.video = m₀.video
  bytes : m.bytes = m₀.bytes
  intact : m.cpu.Intact
  reliable : Reliable m.sounder

theorem Waits.pc (h : Waits m₀ m) : m.cpu.pc = m₀.cpu.pc := by
  rw [h.cpu]

/-- The word is the same. -/
theorem Waits.word (h : Waits m₀ m) : m.cpu.word = m₀.cpu.word := by
  rw [h.cpu]
  rfl

theorem Waits.instruction (h : Waits m₀ m) (hi : m₀.instruction? = some .waitKey) :
    m.instruction? = some .waitKey := by
  rw [instruction?, h.word]
  exact hi

/-- Whatever happens to the keys, a machine waits. -/
theorem Waits.withKeys (h : Waits m₀ m) (keys : κ) : Waits m₀ (m.withKeys keys) :=
  ⟨h.cpu, h.video, h.bytes, h.intact, h.reliable⟩

end Waits

/-- What a cycle of waiting comes to, in terms of the machine that began to wait. -/
theorem Waits.cycle (h : Waits m₀ m) (hi : m₀.instruction? = some .waitKey)
    (hk : m.letGo? = none) :
    cycle m = .ok () m.completed ∧ Waits m₀ m.completed ∧
      m.completed.cpu = { m₀.cpu with
        delay := max 0 (m.cpu.delay - 1), sound := max 0 (m.cpu.sound - 1),
        cycles := m.cpu.cycles + 1 } := by
  have hi' := h.instruction hi
  obtain ⟨hc, hcpu⟩ := cycle_of_waiting h.intact hi' h.reliable hk
  obtain ⟨hvideo, hbytes, hsounder⟩ := devices_completed_of_waitKey hi'
  have hcpu₀ : m.completed.cpu = { m₀.cpu with
      delay := max 0 (m.cpu.delay - 1), sound := max 0 (m.cpu.sound - 1),
      cycles := m.cpu.cycles + 1 } := by
    rw [hcpu]
    conv => lhs; rw [h.cpu]
  refine ⟨hc, ⟨?_, hvideo.trans h.video, hbytes.trans h.bytes, ?_, ?_⟩, hcpu₀⟩
  · rw [hcpu₀]
  · exact completed_intact h.intact (firstFault?_of_waitKey h.intact hi' h.reliable)
  · rw [hsounder]
    split
    · exact h.reliable.beep
    · exact h.reliable

/-- A number of cycles without a key that was let go. -/
theorem Waits.run (h : Waits m₀ m) (hi : m₀.instruction? = some .waitKey) {n : Nat}
    (hk : 0 < n → m.letGo? = none) :
    run n m = .ok () (after (run n) m) ∧ Waits m₀ (after (run n) m) := by
  induction n with
  | zero => exact ⟨rfl, h⟩
  | succ n ih =>
    have hk' := hk (Nat.succ_pos n)
    obtain ⟨hr, hw⟩ := ih fun _ => hk'
    obtain ⟨hc, hw', -⟩ := hw.cycle hi (by rw [letGo?_run]; exact hk')
    have hs : Machine.run (n + 1) m = .ok () (after (Machine.run n) m).completed := by
      rw [run_succ hr, hc]
    rw [after, hs]
    exact ⟨rfl, hw'⟩

end Machine

/-! ### Frames -/

namespace Paced

variable {β δ ρ : Type} [Sounder β] [Display δ] [ByteSource ρ]
variable {s : Paced Keypad β δ ρ} {inputs : Nat → FrameInput} {f : Nat}

/-- A machine waits through frames whose cycles find no key that was let go. -/
theorem waits_play (hw : s.machine.Waits s.machine) (hi : s.machine.instruction? = some .waitKey)
    (hp : s.pacer.Fair)
    (hnone : ∀ g < f, 0 < s.cyclesIn inputs g →
      ∀ k, ¬(s.heard inputs g).machine.keys.LetGo k) :
    s.machine.Waits (s.play inputs f).machine := by
  induction f with
  | zero => exact hw
  | succ f ih =>
    have hheard : s.machine.Waits (s.heard inputs f).machine :=
      (ih fun g hg => hnone g (Nat.lt_succ_of_lt hg)).withKeys _
    obtain ⟨hr, hafter⟩ := hheard.run hi fun hn =>
      Machine.letGo?_eq_none_iff.mpr (hnone f (Nat.lt_succ_self f) hn)
    rw [machine_play_succ hp (completes_iff.mpr ⟨_, hr⟩)]
    exact hafter.withKeys _

/-- Waiting for a key, through any number of frames. As long as no cycle finds a key that was let
go, every cycle leaves the machine at the same word and passes the time: it takes one off each timer
that runs, counts itself, and sounds the tone if the sound timer runs out. In the first frame that
runs a cycle while keys are found, this cycle puts the lowest of them into `Vx` and goes on behind
the word. -/
theorem wait_for_key (h : s.machine.cpu.Intact) (hi : s.machine.instruction? = some .waitKey)
    (hb : Reliable s.machine.sounder) (hp : s.pacer.Fair)
    (hnone : ∀ g < f, 0 < s.cyclesIn inputs g →
      ∀ k, ¬(s.heard inputs g).machine.keys.LetGo k) :
    ((∀ k, ¬(s.heard inputs f).machine.keys.LetGo k) →
      ∀ i < s.cyclesIn inputs f, ∃ a b,
        Machine.run i (s.heard inputs f).machine = .ok () a ∧ Machine.cycle a = .ok () b ∧
        a.cpu.pc = s.machine.cpu.pc ∧
        b.cpu = { s.machine.cpu with
          delay := max 0 (a.cpu.delay - 1), sound := max 0 (a.cpu.sound - 1),
          cycles := a.cpu.cycles + 1 } ∧
        b.video = s.machine.video ∧ b.bytes = s.machine.bytes ∧
        b.sounder = if a.cpu.sound = 1 then (Sounder.beep a.sounder).device else a.sounder) ∧
    (∀ k, (s.heard inputs f).machine.keys.LetGo k →
      (∀ j < k, ¬(s.heard inputs f).machine.keys.LetGo j) →
      ∃ b, Machine.cycle (s.heard inputs f).machine = .ok () b ∧
        b.cpu.pc = s.machine.cpu.pc + 2 ∧
        (b.cpu.reg s.machine.cpu.word.x).toNat = k) := by
  have hheard : s.machine.Waits (s.heard inputs f).machine :=
    (waits_play ⟨rfl, rfl, rfl, h, hb⟩ hi hp hnone).withKeys _
  constructor
  · intro hidle i _
    have hk := Machine.letGo?_eq_none_iff.mpr hidle
    obtain ⟨hr, hw⟩ := hheard.run hi (n := i) fun _ => hk
    have hi' := hw.instruction hi
    obtain ⟨hc, hw', hcpu⟩ := hw.cycle hi (by rw [Machine.letGo?_run]; exact hk)
    obtain ⟨-, -, hsounder⟩ := Machine.devices_completed_of_waitKey hi'
    exact ⟨_, _, hr, hc, hw.pc, hcpu, hw'.video, hw'.bytes, hsounder⟩
  · intro k hk hlow
    obtain ⟨hc, hreg, hpc⟩ := Machine.cycle_of_released hheard.intact (hheard.instruction hi)
      hheard.reliable (Machine.letGo?_eq_some hk hlow)
    rw [hheard.pc] at hpc
    rw [hheard.word] at hreg
    exact ⟨_, hc, hpc, hreg⟩

/-- A key is pressed in one frame and let go in the next. The cycle of the first frame waits, and
the one of the second frame finds the key. -/
theorem wait_for_key_over_two_frames :
    ∃ (s : Paced Keypad BeepCounter Recorder ByteLoop) (inputs : Nat → FrameInput)
      (b : Machine Keypad BeepCounter Recorder ByteLoop),
      s.pacer = ⟨.whole 1, .whole 3, .zero⟩ ∧
      s.machine.cpu = Processor.powerOn.withProgram [0xF3, 0x0A] ∧
      inputs 0 = ⟨[.press ⟨5, by decide⟩], .whole 1⟩ ∧
      inputs 1 = ⟨[.release ⟨5, by decide⟩], .whole 1⟩ ∧ s.cyclesIn inputs 0 = 1 ∧
      Machine.cycle (s.heard inputs 1).machine = .ok () b ∧
      b.cpu.pc = 0x202 ∧ (b.cpu.reg 3).toNat = 5 := by
  have h : (Processor.powerOn.withProgram [0xF3, 0x0A]).Intact :=
    Processor.intact_powerOn.withProgram (by decide)
  obtain ⟨s, hs⟩ : ∃ s : Paced Keypad BeepCounter Recorder ByteLoop, s =
      ⟨{ Machine.powerOn .initial .fresh .fresh ⟨#[], 0⟩ false (.withLimit none) with
        cpu := Processor.powerOn.withProgram [0xF3, 0x0A] }, ⟨.whole 1, .whole 3, .zero⟩⟩ :=
    ⟨_, rfl⟩
  obtain ⟨inputs, hinputs⟩ : ∃ inputs : Nat → FrameInput, inputs = fun f =>
      match f with
      | 0 => ⟨[.press ⟨5, by decide⟩], .whole 1⟩
      | _ => ⟨[.release ⟨5, by decide⟩], .whole 1⟩ := ⟨_, rfl⟩
  have hmade : Pacer.create (.whole 1) (.whole 3) = .ok ⟨.whole 1, .whole 3, .zero⟩ := rfl
  have hfair : s.pacer.Fair := by
    rw [hs]
    exact Pacer.fair_create hmade
  have hcpu : s.machine.cpu = Processor.powerOn.withProgram [0xF3, 0x0A] := by rw [hs]
  have hb : Reliable s.machine.sounder := BeepCounter.reliable (by rw [hs]; rfl)
  obtain ⟨hi, hx, hone, hnone, hk, hlow⟩ :
      s.machine.instruction? = some .waitKey ∧ s.machine.cpu.word.x = 3 ∧
      s.cyclesIn inputs 0 = 1 ∧
      (∀ k, ¬(s.heard inputs 0).machine.keys.LetGo k) ∧
      (s.heard inputs 1).machine.keys.LetGo ⟨5, by decide⟩ ∧
      (∀ j < (⟨5, by decide⟩ : Key), ¬(s.heard inputs 1).machine.keys.LetGo j) := by
    rw [hs, hinputs]
    decide +kernel
  obtain ⟨b, hc, hpc, hreg⟩ := (wait_for_key (hcpu ▸ h) hi hb hfair fun g hg _ => by
    obtain rfl : g = 0 := Nat.lt_one_iff.mp hg
    exact hnone).2 _ hk hlow
  rw [hcpu] at hpc
  rw [hx] at hreg
  exact ⟨s, inputs, b, congrArg pacer hs, hcpu, congrFun hinputs 0, congrFun hinputs 1, hone, hc,
    hpc, hreg⟩

end Paced

end Chip8
