import Chip8.Proofs.Machine.Completion

/-!
# Machines that can be reached

From power-on, by programs loaded, cycles, resets and keys, in any order. Each of them may fail on
the way: the machine that a failed action leaves behind is reached as well, and goes on from there.

Displays, tones, keys and random bytes are any that there are. So a display may refuse every screen
or every second one, and the theorems hold all the same.

## Main results

* `settled_intact` — an instruction keeps the processor intact
* `cycle_intact`, `loadProgram_intact`, `cpu_reset` — the same for the actions, whether they fail or
  not, and `run_induction` for runs of cycles
* `cpu_after_cycle` — the processor after a cycle, whether it fails or not
* `reachable_intact` — so every machine that is reached is intact
* `reachable_bounds` — with the shape of its screen, and what its program counter can be
-/

namespace Chip8

namespace Machine

open Processor

variable {κ β δ ρ : Type}

/-- The machine that an action leaves behind, whether it fails or not. -/
def after {α : Type} (a : Action κ β δ ρ α) (m : Machine κ β δ ρ) : Machine κ β δ ρ :=
  match a m with
  | .ok _ m' => m'
  | .error _ m' => m'

variable {m : Machine κ β δ ρ}

/-! ### Programs and resets -/

/-- A program that fits is put into memory; one that does not is refused as a whole. -/
theorem loadProgram_eq (m : Machine κ β δ ρ) (program : List UInt8) :
    loadProgram program m =
      if maxProgramSize < program.length then
        .error (.programTooLarge program.length maxProgramSize) m
      else .ok () { m with cpu := m.cpu.withProgram program } := by
  by_cases hl : maxProgramSize < program.length
  · rw [if_pos hl]
    refine onCpu_error ?_
    simp only [Effect.ofExcept, if_pos hl]
  · rw [if_neg hl]
    have hfit : ¬(memorySize : Int) < (programStart : Int) + program.length := by
      have := maxProgramSize_lt_iff program.length
      omega
    have hw := write_eq m.cpu (Int.natCast_nonneg programStart) program
    rw [if_neg hfit] at hw
    refine onCpu_ok ?_
    simp only [Effect.ofExcept, if_neg hl, hw]
    rfl

theorem after_loadProgram (m : Machine κ β δ ρ) (program : List UInt8) :
    after (loadProgram program) m =
      if maxProgramSize < program.length then m
      else { m with cpu := m.cpu.withProgram program } := by
  rw [after, loadProgram_eq]
  by_cases hl : maxProgramSize < program.length
  · rw [if_pos hl, if_pos hl]
  · rw [if_neg hl, if_neg hl]

theorem loadProgram_intact (h : m.cpu.Intact) (program : List UInt8) :
    (after (loadProgram program) m).cpu.Intact := by
  rw [after_loadProgram]
  by_cases hl : maxProgramSize < program.length
  · rw [if_pos hl]
    exact h
  · rw [if_neg hl]
    exact h.withProgram (by omega)

theorem cycles_loadProgram (program : List UInt8) :
    (after (loadProgram program) m).cpu.cycles = m.cpu.cycles := by
  rw [after_loadProgram]
  split <;> rfl

/-- A reset is a change of processor, trace and video, even if the display fails. -/
theorem after_reset [Display δ] (m : Machine κ β δ ρ) :
    ∃ v, after reset m = { m with cpu := .powerOn, trace := m.trace.clear, video := v } := by
  have hm : (modify fun m => { m with cpu := .powerOn, trace := m.trace.clear } :
      Action κ β δ ρ Unit) m = .ok () { m with cpu := .powerOn, trace := m.trace.clear } := rfl
  rw [after, reset, bind_ok hm, onVideo]
  cases Video.clear m.video with
  | ok _ v => exact ⟨v, rfl⟩
  | error f v => exact ⟨v, rfl⟩

theorem cpu_reset [Display δ] : (after reset m).cpu = .powerOn := by
  obtain ⟨v, hv⟩ := after_reset m
  rw [hv]

variable [KeyInput κ] [Sounder β] [Display δ] [ByteSource ρ]

/-! ### Cycles -/

/-- An instruction that is not refused keeps the processor intact, and so do the timers. -/
theorem settled_intact (h : m.cpu.Intact) (hf : m.faultAt? .fetch = none)
    (hs : m.faultAt? .stack = none) : m.settled.cpu.Intact := by
  have hp := faultAt?_fetch_eq_none_iff.mp hf
  have hret : m.instruction? = some .ret → m.cpu.sp ≠ 0 := by
    intro hi h0
    simp [faultAt?, hi, h0] at hs
  have hcall : m.instruction? = some .call → m.cpu.sp ≠ stackDepth := by
    intro hi h0
    simp [faultAt?, hi, h0] at hs
  have hd := delaySet_bounds h
  have ht := soundSet_bounds h
  constructor
  case registers => exact Array.size_mapIdx.trans h.registers
  case memory => exact Array.size_mapIdx.trans h.memory
  case stack => exact Array.size_mapIdx.trans h.stack
  case slots =>
    intro s hs
    have hlt : s < m.cpu.stack.size := by rw [h.stack]; exact hs
    have hslot : m.settled.cpu.slot s = m.slotAfter s (m.cpu.slot s) :=
      getD_mapIdx hlt m.slotAfter 0
    rw [hslot]
    exact slotAfter_bounds h hp hs
  case sp => exact spAfter_bounds h hret hcall
  case index => exact indexAfter_bounds h
  case pc => exact pcAfter_bounds h hp hret
  case delay =>
    change 0 ≤ max 0 (m.delaySet - 1) ∧ max 0 (m.delaySet - 1) ≤ 0xFF
    omega
  case sound =>
    change 0 ≤ max 0 (m.soundSet - 1) ∧ max 0 (m.soundSet - 1) ≤ 0xFF
    omega

/-- A failed cycle has passed its fetch unless it is the fetch that failed, and no tone fails
before the stack was looked at. -/
theorem leftAt_intact {s : Stage} {f : Fault} (h : m.cpu.Intact)
    (hs : m.firstFault? = some (s, f)) : (m.leftAt f s).cpu.Intact := by
  have hbefore := (firstFault?_eq_some_iff.mp hs).2
  have hpast : m.faultAt? .fetch = none → m.past.cpu.Intact :=
    fun hf => past_intact h (faultAt?_fetch_eq_none_iff.mp hf)
  cases s with
  | fetch =>
    rw [leftAt, record_cpu]
    exact h
  | decode | stack | access =>
    rw [leftAt, record_cpu]
    exact hpast (hbefore .fetch (by decide))
  | display =>
    rw [leftAt, record_cpu]
    exact hpast (hbefore .fetch (by decide))
  | sound => exact settled_intact h (hbefore .fetch (by decide)) (hbefore .stack (by decide))

theorem completed_intact (h : m.cpu.Intact) (hn : m.firstFault? = none) :
    m.completed.cpu.Intact := by
  have hpassed := firstFault?_eq_none_iff.mp hn
  rw [completed, record_cpu]
  exact (settled_intact h (hpassed .fetch) (hpassed .stack)).setCycles _

theorem cycle_intact (h : m.cpu.Intact) : (after cycle m).cpu.Intact := by
  rw [after, cycle_eq h]
  cases hs : m.firstFault? with
  | none => exact completed_intact h hs
  | some sf => exact leftAt_intact h hs

/-- The processor after a cycle. A failure leaves it where the cycle had got to: at the word, past
it, or through the instruction if it is the tone that fails. -/
theorem cpu_after_cycle (h : m.cpu.Intact) :
    (after cycle m).cpu =
      match m.firstFault? with
      | none => m.completed.cpu
      | some (.fetch, _) => m.cpu
      | some (.sound, _) => m.settled.cpu
      | some _ => m.past.cpu := by
  rw [after, cycle_eq h]
  cases m.firstFault? with
  | none => rfl
  | some sf =>
    obtain ⟨s, f⟩ := sf
    cases s with
    | sound => rfl
    | fetch | decode | stack | access | display => exact record_cpu _ _ _

/-- Only a completed cycle is counted. -/
theorem cycles_le_cycles_cycle (h : m.cpu.Intact) :
    m.cpu.cycles ≤ (after cycle m).cpu.cycles := by
  rw [cpu_after_cycle h]
  split
  · rw [cpu_completed]
    exact Int.le_add_one (Int.le_refl _)
  all_goals exact Int.le_refl _

/-- What every cycle keeps to, a run of cycles keeps to. -/
theorem run_induction {P : Machine κ β δ ρ → Prop} (hcycle : ∀ m, P m → P (after cycle m)) (n : Nat)
    (h : P m) : P (after (run n) m) := by
  induction n generalizing m with
  | zero => exact h
  | succ n ih =>
    have hc := hcycle m h
    cases hr : cycle m with
    | ok _ m' =>
      rw [after, hr] at hc
      simpa only [after, run, hr] using ih hc
    | error f m' =>
      rw [after, hr] at hc
      simpa only [after, run, hr] using hc

/-! ### Reachable machines -/

/-- The machines that can be reached. Nothing is written into them from outside but keys. -/
inductive Reachable : Machine κ β δ ρ → Prop where
  | powerOn (keys : κ) (sounder : β) (display : δ) (bytes : ρ) (tracing : Bool) (trace : Trace) :
    Reachable (powerOn keys sounder display bytes tracing trace)
  | loadProgram {m : Machine κ β δ ρ} (program : List UInt8) :
    Reachable m → Reachable (after (loadProgram program) m)
  | cycle {m : Machine κ β δ ρ} : Reachable m → Reachable (after cycle m)
  | run {m : Machine κ β δ ρ} (n : Nat) : Reachable m → Reachable (after (run n) m)
  | reset {m : Machine κ β δ ρ} : Reachable m → Reachable (after reset m)
  | keys {m : Machine κ β δ ρ} (keys : κ) : Reachable m → Reachable { m with keys := keys }

/-- Every machine that is reached is intact, and its cycles are counted from zero. -/
theorem reachable_intact (h : Reachable m) : m.cpu.Intact ∧ 0 ≤ m.cpu.cycles := by
  have hcycle : ∀ m : Machine κ β δ ρ, m.cpu.Intact ∧ 0 ≤ m.cpu.cycles →
      (after cycle m).cpu.Intact ∧ 0 ≤ (after cycle m).cpu.cycles := by
    rintro m ⟨h, hc⟩
    exact ⟨cycle_intact h, Int.le_trans hc (cycles_le_cycles_cycle h)⟩
  induction h with
  | powerOn => exact ⟨intact_powerOn, Int.le_refl 0⟩
  | loadProgram program _ ih =>
    refine ⟨loadProgram_intact ih.1 program, ?_⟩
    rw [cycles_loadProgram]
    exact ih.2
  | cycle _ ih => exact hcycle _ ih
  | run n _ ih => exact run_induction hcycle n ih
  | reset _ _ =>
    rw [cpu_reset]
    exact ⟨intact_powerOn, Int.le_refl 0⟩
  | keys _ _ ih => exact ih

/-- What holds of every machine that is reached: all sizes and ranges, no address is ever cut to
sixteen bits, the screen is a grid of 32 rows of 64 pixels, and the processor is valid exactly if
its program counter is even and in memory. -/
theorem reachable_bounds (h : Reachable m) :
    m.cpu.Intact ∧ m.cpu.Unmasked ∧
    (m.screen.grid.length = screenHeight ∧ ∀ row ∈ m.screen.grid, row.length = screenWidth) ∧
    (m.cpu.isValid = true ↔ m.cpu.pc % 2 = 0 ∧ m.cpu.pc < memorySize) := by
  obtain ⟨hi, hc⟩ := reachable_intact h
  refine ⟨hi, hi.unmasked, ⟨?_, ?_⟩, hi.isValid_iff hc⟩
  · simp [Screen.grid]
  · intro row hrow
    obtain ⟨bits, -, rfl⟩ := List.mem_map.mp hrow
    simp

/-- The greatest address is reached, by a jump to `0xFFF` with `0xFF` on top. The processor is then
not valid. -/
theorem reachable_bounds_at_greatest_address :
    (after (run 2) (after (loadProgram [0x60, 0xFF, 0xBF, 0xFF])
      (headless .powerOn))).cpu.pc = 0x10FE ∧
    (after (run 2) (after (loadProgram [0x60, 0xFF, 0xBF, 0xFF])
      (headless .powerOn))).cpu.isValid = false := by
  have hr : Reachable (headless .powerOn) :=
    .powerOn NoKeys.mk BeepCounter.fresh Recorder.fresh (ByteLoop.mk #[] 0) false (.withLimit none)
  have hpc : (after (run 2) (after (loadProgram [0x60, 0xFF, 0xBF, 0xFF])
      (headless .powerOn))).cpu.pc = 0x10FE := by decide +kernel
  have hvalid := (reachable_bounds (.run 2 (.loadProgram [0x60, 0xFF, 0xBF, 0xFF] hr))).2.2.2
  refine ⟨hpc, Bool.eq_false_iff.mpr fun h => ?_⟩
  have := hvalid.mp h
  rw [hpc] at this
  exact absurd this (by decide)

end Machine

end Chip8
