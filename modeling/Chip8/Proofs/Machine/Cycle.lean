import Chip8.Proofs.Machine.Execution

/-!
# A cycle as one equation

`cycle_eq` says what a cycle does to an intact machine: it fails at the first stage with a fault
and leaves behind what `leftAt` says, or it ends with `completed`.

The four steps of a cycle have equations of their own. Fetching is `Processor.fetch_eq`; the others
are `advance_eq`, `perform_eq` and `tick_eq`. Each gives the first of the stages it is responsible
for, and `firstFault?_eq` is the order in which they are put together.
-/

namespace Chip8

namespace Machine

open Processor

variable {κ β δ ρ : Type} {m : Machine κ β δ ρ}

/-! ### The steps of a cycle -/

/-- No fetch that works is at the end of the addresses. -/
theorem advance_eq (h : m.cpu.Intact) : m.advance = m.past := by
  have := h.pc
  rw [advance, past, Int.emod_eq_of_lt (by omega) (by omega)]

theorem countDown_eq {t : Int} (h : 0 ≤ t) : countDown t = max 0 (t - 1) := by
  rw [countDown]
  split <;> omega

variable [Sounder β] [Display δ]

/-- A tone that is due, before and after it is sounded. -/
theorem beep_eq {m' : Machine κ β δ ρ} (hs : m'.sounder = m.sounder) (h : m.soundSet = 1) :
    (beep : Action κ β δ ρ Unit) m' =
      match m.faultAt? .sound with
      | some f => .error f { m' with sounder := m.sounderAfter }
      | none => .ok () { m' with sounder := m.sounderAfter } := by
  rw [beep, hs, faultAt?, soundFailure?, if_pos h, sounderAfter, if_pos h]
  cases hu : (Sounder.beep m.sounder).failure <;> simp

variable [KeyInput κ] [ByteSource ρ]

/-- Carrying out a word that was fetched. -/
theorem perform_eq (h : m.cpu.Intact) (hp : m.cpu.pc ≤ 4094) :
    perform m.cpu.pc m.cpu.word m.past =
      match m.faultAt? .decode with
      | some f => .error f m.past
      | none => m.outcome := by
  cases hi : m.instruction? with
  | none =>
    have hd : m.cpu.word.decode = none := hi
    simp only [perform, faultAt?, hd, hi]
  | some i =>
    have hd : m.cpu.word.decode = some i := hi
    simp only [perform, faultAt?, hd, hi]
    exact execute_eq h hp hi

/-- The timers run down, and the tone is sounded if the sound timer runs out. -/
theorem tick_eq (h : m.cpu.Intact) :
    tick m.obeyed =
      match m.faultAt? .sound with
      | some f => .error f m.settled
      | none => .ok () m.settled := by
  have hd := countDown_eq (delaySet_bounds h).1
  have hs := countDown_eq (soundSet_bounds h).1
  have ht : (tick : Action κ β δ ρ Unit) m.obeyed =
      (if m.soundSet = 1 then beep else pure () : Action κ β δ ρ Unit)
        { m.obeyed with cpu := { m.cpuAfter with
          delay := max 0 (m.delaySet - 1), sound := max 0 (m.soundSet - 1) } } := by
    rw [← hd, ← hs]
    rfl
  rw [ht]
  by_cases h1 : m.soundSet = 1
  · rw [if_pos h1]
    exact beep_eq rfl h1
  · have hq : m.faultAt? .sound = none := by rw [faultAt?, soundFailure?, if_neg h1]; rfl
    have hb : m.sounderAfter = m.sounder := if_neg h1
    rw [if_neg h1, hq, settled, hb]
    rfl

/-! ### The cycle -/

/-- What a cycle leaves behind that fails at a stage with a fault. Only a tone comes after the
instruction, and it alone leaves no record. -/
def leftAt (m : Machine κ β δ ρ) (f : Fault) : Stage → Machine κ β δ ρ
  | .fetch => m.record m.cpu none f
  | .decode | .stack | .access => m.past.record m.cpu m.cpu.word f
  | .display => { m.past with video := m.videoAfter }.record m.cpu m.cpu.word f
  | .sound => m.settled

/-- The machine after a cycle that does not fail. -/
def completed (m : Machine κ β δ ρ) : Machine κ β δ ρ :=
  m.settled.countCycle.record m.cpu m.cpu.word none

/-- The cycle ends with an instruction that fails. -/
theorem cycle_of_error {f : Fault} {m' : Machine κ β δ ρ} (h : m.cpu.Intact)
    (hp : m.cpu.pc ≤ 4094) (he : perform m.cpu.pc m.cpu.word m.past = .error f m') :
    cycle m = .error f (m'.record m.cpu m.cpu.word f) := by
  have hf := fetch_eq h.memory h.pc.1
  rw [if_neg (by omega)] at hf
  simp only [cycle, hf, advance_eq h, he]

/-- The instruction is carried out, and the rest of the cycle is the tick. -/
theorem cycle_of_ok (h : m.cpu.Intact) (hp : m.cpu.pc ≤ 4094)
    (he : perform m.cpu.pc m.cpu.word m.past = .ok () m.obeyed) :
    cycle m =
      match m.faultAt? .sound with
      | some f => .error f m.settled
      | none => .ok () m.completed := by
  have hf := fetch_eq h.memory h.pc.1
  rw [if_neg (by omega)] at hf
  simp only [cycle, hf, advance_eq h, he, tick_eq h]
  cases m.faultAt? .sound <;> rfl

/-- A cycle fails at the first stage that has a fault, or it is completed. -/
theorem cycle_eq (h : m.cpu.Intact) :
    cycle m =
      match m.firstFault? with
      | some (s, f) => .error f (m.leftAt f s)
      | none => .ok () m.completed := by
  rw [firstFault?_eq]
  by_cases hp : 4094 < m.cpu.pc
  · have hf := fetch_eq h.memory h.pc.1
    rw [if_pos hp] at hf
    rw [cycle, hf, faultAt?, if_pos hp]
    rfl
  have hn : m.faultAt? .fetch = none := if_neg hp
  have hp : m.cpu.pc ≤ 4094 := by omega
  have he := perform_eq h hp
  -- From here on stage by stage: each is looked at once those before it are passed.
  rw [hn]
  cases hd : m.faultAt? .decode with
  | some f =>
    rw [hd] at he
    exact cycle_of_error h hp he
  | none =>
    replace he : perform m.cpu.pc m.cpu.word m.past = m.outcome := by rw [he, hd]
    cases hs : m.faultAt? .stack with
    | some f =>
      rw [outcome_of_refused (by rw [hs]; rfl)] at he
      exact cycle_of_error h hp he
    | none =>
      cases ha : m.faultAt? .access with
      | some f =>
        rw [outcome_of_refused (by rw [hs, ha]; rfl)] at he
        exact cycle_of_error h hp he
      | none =>
        cases hu : m.displayFailure? with
        | some reason =>
          have hv : m.faultAt? .display = some (.device reason) := by rw [faultAt?, hu]; rfl
          rw [outcome_of_display_failed hs ha hu] at he
          rw [hv]
          exact cycle_of_error h hp he
        | none =>
          have hv : m.faultAt? .display = none := by rw [faultAt?, hu]; rfl
          rw [outcome_of_passed hs ha hu] at he
          rw [hv, cycle_of_ok h hp he]
          cases m.faultAt? .sound <;> rfl

theorem cycle_eq_error_iff (h : m.cpu.Intact) {f : Fault} {m' : Machine κ β δ ρ} :
    cycle m = .error f m' ↔ ∃ s, m.firstFault? = some (s, f) ∧ m.leftAt f s = m' := by
  rw [cycle_eq h]
  cases m.firstFault? with
  | none => simp
  | some sf =>
    obtain ⟨s, f₀⟩ := sf
    constructor
    · intro he
      obtain ⟨rfl, rfl⟩ : f₀ = f ∧ m.leftAt f₀ s = m' := by simpa using he
      exact ⟨s, rfl, rfl⟩
    · rintro ⟨s', hs, rfl⟩
      obtain ⟨rfl, rfl⟩ : s = s' ∧ f₀ = f := by simpa using hs
      rfl

theorem cycle_eq_ok_iff (h : m.cpu.Intact) {m' : Machine κ β δ ρ} :
    cycle m = .ok () m' ↔ m.firstFault? = none ∧ m.completed = m' := by
  rw [cycle_eq h]
  cases m.firstFault? <;> simp

end Machine

end Chip8
