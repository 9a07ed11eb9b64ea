import Chip8.Proofs.Machine.Cycle

/-!
# Cycles that fail

When a cycle of an intact machine fails, with which fault, and what it leaves behind. All of it is
read off `cycle_eq`.

A cycle that is traced leaves its record even if it fails, up to a tone that fails. So the theorems
name the record next to the change; without tracing there is none, and `record` is the identity.

## Main results

* `cycle_fails_iff` — a cycle fails exactly if a stage has a fault, with the fault of the first one
* `left_by_failed_cycle` — what is left behind, stage by stage
-/

namespace Chip8

namespace Machine

open Processor

variable {κ β δ ρ : Type} [KeyInput κ] [Sounder β] [Display δ] [ByteSource ρ]
variable {m m' : Machine κ β δ ρ} {f : Fault}

/-- A cycle of an intact machine fails exactly if one of its stages has a fault. Then it fails with
the fault of the first such stage, which is one of those that arise. -/
theorem cycle_fails_iff (h : m.cpu.Intact) (f : Fault) :
    ((∃ m', cycle m = .error f m') ↔
      ∃ s, m.faultAt? s = some f ∧ ∀ s', stages.idxOf s' < stages.idxOf s → m.faultAt? s' = none) ∧
    ((∃ m', cycle m = .error f m') → f.arises = true) := by
  have hiff : (∃ m', cycle m = .error f m') ↔ ∃ s, m.firstFault? = some (s, f) := by
    constructor
    · rintro ⟨m', he⟩
      obtain ⟨s, hs, -⟩ := (cycle_eq_error_iff h).mp he
      exact ⟨s, hs⟩
    · rintro ⟨s, hs⟩
      exact ⟨m.leftAt f s, (cycle_eq_error_iff h).mpr ⟨s, hs, rfl⟩⟩
  refine ⟨?_, fun he => ?_⟩
  · simpa only [firstFault?_eq_some_iff] using hiff
  · obtain ⟨s, hs⟩ := hiff.mp he
    exact arises_of_faultAt? (firstFault?_eq_some_iff.mp hs).1

/-- Two registers do not fit at the last address of memory. -/
theorem cycle_fails_at_last_address :
    ∃ m', cycle (headless { Processor.powerOn.withProgram [0xF1, 0x55] with index := 0xFFF }) =
      .error (.outsideMemory 0x1000) m' := by
  have h : { Processor.powerOn.withProgram [0xF1, 0x55] with index := 0xFFF }.Intact :=
    { intact_powerOn.withProgram (by decide) with index := by decide }
  refine (cycle_fails_iff h _).1.mpr ⟨.access, by decide +kernel, fun s' hlt => ?_⟩
  cases s' with
  | fetch | decode | stack => decide +kernel
  | access | display | sound => exact absurd hlt (by decide)

/-! ### What is left behind -/

/-- What a cycle leaves behind that fails, by the stage at which it does. Once a screen was
presented it stays, lit where `pixelAfter` says. -/
theorem left_by_failed_cycle (h : m.cpu.Intact) (he : cycle m = .error f m') :
    ∃ s, m.firstFault? = some (s, f) ∧
      match s with
      | .fetch => m' = m.record m.cpu none f
      | .decode | .stack | .access =>
        m' = ({ m with cpu := { m.cpu with pc := m.cpu.pc + 2 } } : Machine κ β δ ρ).record
          m.cpu m.cpu.word f
      | .display =>
        ∃ shown, m.shown? = some shown ∧
          (∀ c < screenWidth, ∀ r < screenHeight, shown.pixel c r = m.pixelAfter c r) ∧
          m' = ({ m with
            cpu := { m.cpu with pc := m.cpu.pc + 2 }
            video := ⟨shown, (Display.present shown m.display).device⟩ } :
              Machine κ β δ ρ).record m.cpu m.cpu.word f
      | .sound =>
        (∀ c < screenWidth, ∀ r < screenHeight, m'.screen.pixel c r = m.pixelAfter c r) ∧
        m' = { m.obeyed with
          cpu := { m.cpuAfter with delay := max 0 (m.delaySet - 1), sound := 0 }
          sounder := (Sounder.beep m.sounder).device } := by
  obtain ⟨s, hs, rfl⟩ := (cycle_eq_error_iff h).mp he
  have hf := (firstFault?_eq_some_iff.mp hs).1
  refine ⟨s, hs, ?_⟩
  cases s with
  | fetch => rfl
  | decode => rfl
  | stack => rfl
  | access => rfl
  | display =>
    obtain ⟨shown, hshown⟩ := shown?_of_faultAt? hf
    refine ⟨shown, hshown, fun c hc r hr => pixel_of_shown? hshown hc hr, ?_⟩
    simp only [leftAt, videoAfter, hshown]
    rfl
  | sound =>
    have h1 := soundSet_of_faultAt? hf
    refine ⟨fun c hc r hr => pixel_videoAfter hc hr, ?_⟩
    simp only [leftAt, settled, sounderAfter, h1, if_pos]
    rfl

/-- A glyph is drawn on a display that is gone: the program counter is past the word, the glyph is
on the screen, and `VF` is not written. -/
theorem left_by_refused_draw :
    ∃ m', cycle { headless { Processor.powerOn.withProgram [0xD0, 0x05] with
        registers := Array.replicate registerCount 7 } with
      video := ⟨.blank, { Recorder.fresh with capacity := some 0 }⟩ } =
        .error (.device (.broken "window gone")) m' ∧
      m'.cpu.pc = 0x202 ∧ m'.cpu.reg 0xF = 7 ∧
      m'.screen.pixel 7 7 = true ∧ m'.screen.pixel 8 8 = false := by
  have h : { Processor.powerOn.withProgram [0xD0, 0x05] with
      registers := Array.replicate registerCount 7 }.Intact :=
    { intact_powerOn.withProgram (by decide) with registers := by simp }
  have hs : firstFault? { headless { Processor.powerOn.withProgram [0xD0, 0x05] with
        registers := Array.replicate registerCount 7 } with
      video := ⟨.blank, { Recorder.fresh with capacity := some 0 }⟩ } =
        some (.display, .device (.broken "window gone")) := by decide +kernel
  have he := (cycle_eq_error_iff h).mpr ⟨_, hs, rfl⟩
  obtain ⟨s, hs', hm⟩ := left_by_failed_cycle h he
  obtain rfl : s = .display := by
    rw [hs] at hs'
    simpa using hs'.symm
  obtain ⟨shown, -, hpixel, hm⟩ := hm
  refine ⟨_, he, ?_⟩
  rw [hm]
  refine ⟨rfl, rfl, ?_, ?_⟩
  · refine (hpixel 7 (by decide) 7 (by decide)).trans ?_
    decide +kernel
  · refine (hpixel 8 (by decide) 8 (by decide)).trans ?_
    decide +kernel

end Machine

end Chip8
