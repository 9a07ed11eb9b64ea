import Chip8.Proofs.Machine.CallStack

/-!
# How a machine gets to an odd address

Words are two bytes long and programs are loaded at an even address, so one expects the program
counter to be even. Nothing sees to it: the address of a jump is taken as it is, and the words at
odd addresses are fetched like any others. What holds is that only a jump or a call leads from an
even address to an odd one. Skips and the wait for a key move by whole words. A return goes to an
address that a call has left, which is odd only if the call was at an odd address itself. And a
cycle that fails has moved past its word, or not at all.

So the program counter and the return addresses have to be looked at together, and a history is
needed: what a cycle does to them depends on the jumps since the last reset, and on nothing before
it. `SinceReset` keeps the machines that the cycles began with. It takes in cycles that fail and
programs loaded in between.

## Main definitions

* `Processor.Aligned` — program counter and return addresses are even
* `Machine.target?` — where a cycle jumps or calls to
* `Machine.SinceReset` — a machine with its cycles since the last reset

## Main results

* `flow_after_cycle` — program counter and calls after any cycle
* `aligned_cycle` — what a cycle makes of an aligned processor
* `exists_sinceReset` — every machine that can be reached has such a history
* `odd_by_jump_only` — how a machine gets to an odd address
-/

namespace Chip8

namespace Processor

/-- The program counter is even, and so are the return addresses in use. -/
structure Aligned (p : Processor) : Prop where
  pc : p.pc % 2 = 0
  calls : ∀ a ∈ p.calls, a % 2 = 0

theorem aligned_powerOn : powerOn.Aligned where
  pc := by decide
  calls := by
    have hnone : powerOn.calls = [] := by decide
    simp [hnone]

end Processor

namespace Machine

open Processor

variable {κ β δ ρ : Type} {m m' : Machine κ β δ ρ}

/-! ### Jumps -/

section Jumps

variable [Sounder β] [Display δ]

/-- Whether the cycle gets through its instruction. Only the tone comes after it. -/
def carriesOut (m : Machine κ β δ ρ) : Bool :=
  match m.firstFault? with
  | none | some (.sound, _) => true
  | some _ => false

/-- Where the cycle goes, if it carries out a jump or a call. -/
def target? (m : Machine κ β δ ρ) : Option Int :=
  if m.carriesOut then
    match m.instruction? with
    | some .jump | some .call => some m.cpu.word.nnn
    | some .jumpOffset => some ((m.cpu.reg 0).toNat + m.cpu.word.nnn)
    | _ => none
  else none

variable [KeyInput κ]

theorem pcAfter_of_target? {a : Int} (h : m.target? = some a) : m.pcAfter = a := by
  rw [target?] at h
  split at h
  · rw [pcAfter]
    split at h <;> simp_all
  · contradiction

/-- Without a jump the machine stays, goes on, or skips a word. -/
theorem pcAfter_of_no_target (hc : m.carriesOut = true) (h : m.target? = none)
    (hr : m.instruction? ≠ some .ret) :
    m.pcAfter = m.cpu.pc ∨ m.pcAfter = m.cpu.pc + 2 ∨ m.pcAfter = m.cpu.pc + 4 := by
  rw [target?, if_pos hc] at h
  rw [pcAfter]
  split
  · next hi => simp [hi] at h
  · next hi => simp [hi] at h
  · next hi => simp [hi] at h
  · next hi => exact absurd hi hr
  · split
    · exact .inr (.inl rfl)
    · exact .inl rfl
  · split
    · exact .inr (.inr rfl)
    · exact .inr (.inl rfl)

end Jumps

/-- A program is put beside program counter and stack. -/
theorem aligned_loadProgram (h : m.cpu.Aligned) (program : List UInt8) :
    (after (loadProgram program) m).cpu.Aligned := by
  rw [after_loadProgram]
  split
  · exact h
  · exact ⟨h.pc, h.calls⟩

variable [KeyInput κ] [Sounder β] [Display δ] [ByteSource ρ]

/-! ### One cycle -/

/-- Program counter and calls after a cycle. An instruction that is carried out has its effect on
both, even if the tone fails afterwards. Any other cycle leaves the calls alone, and has moved the
program counter past the word at most. -/
theorem flow_after_cycle (h : m.cpu.Intact) :
    (m.carriesOut = true ∧ (after cycle m).cpu.pc = m.pcAfter ∧ m.CallsStep (after cycle m)) ∨
    (m.carriesOut = false ∧ (after cycle m).cpu.calls = m.cpu.calls ∧
      ((after cycle m).cpu.pc = m.cpu.pc ∨ (after cycle m).cpu.pc = m.cpu.pc + 2)) := by
  rw [CallsStep, cpu_after_cycle h, carriesOut]
  cases hs : m.firstFault? with
  | none => exact .inl ⟨rfl, pc_completed, callsStep_completed h hs⟩
  | some sf =>
    obtain ⟨s, f⟩ := sf
    have hbefore := (firstFault?_eq_some_iff.mp hs).2
    cases s with
    | fetch => exact .inr ⟨rfl, rfl, .inl rfl⟩
    | decode | stack | access | display => exact .inr ⟨rfl, rfl, .inr rfl⟩
    | sound =>
      exact .inl ⟨rfl, rfl, callsStep_settled h (hbefore .fetch (by decide))
        (hbefore .stack (by decide))⟩

/-- Return addresses stay even wherever the cycle goes, since a call leaves the address after
itself. The program counter stays even unless it is the target of a jump. -/
theorem aligned_cycle (h : m.cpu.Intact) (ha : m.cpu.Aligned) :
    (∀ a ∈ (after cycle m).cpu.calls, a % 2 = 0) ∧
      ((after cycle m).cpu.pc % 2 = 0 ∨ m.target? = some (after cycle m).cpu.pc) := by
  have hpc := ha.pc
  obtain ⟨hc, hafter, hstep⟩ | ⟨-, hcalls, hafter⟩ := flow_after_cycle h
  · rw [CallsStep] at hstep
    split at hstep
    · next hi =>
      rw [hstep]
      refine ⟨fun a hmem => ?_, .inr ?_⟩
      · obtain hmem | hmem := List.mem_append.mp hmem
        · exact ha.calls a hmem
        · rw [List.mem_singleton.mp hmem]
          omega
      · rw [hafter, target?, if_pos hc, pcAfter]
        simp only [hi]
    · -- A return goes to one of the addresses in use before it.
      have hmem : ∀ a ∈ (after Machine.cycle m).cpu.calls ++ [(after Machine.cycle m).cpu.pc],
          a % 2 = 0 := fun a hmem => ha.calls a (hstep ▸ hmem)
      exact ⟨fun a hleft => hmem a (List.mem_append_left _ hleft), .inl (hmem _ (by simp))⟩
    · next hcall hret =>
      rw [hstep, hafter]
      refine ⟨ha.calls, ?_⟩
      cases ht : m.target? with
      | some a => exact .inr (congrArg some (pcAfter_of_target? ht).symm)
      | none =>
        have hmoved := pcAfter_of_no_target hc ht hret
        exact .inl (by omega)
  · rw [hcalls]
    exact ⟨ha.calls, .inl (by omega)⟩

/-! ### Histories -/

/-- A machine with the machines that its cycles began with since it was last switched on or reset,
the first cycle first. A cycle that fails belongs to them as well. -/
inductive SinceReset : List (Machine κ β δ ρ) → Machine κ β δ ρ → Prop where
  | powerOn (keys : κ) (sounder : β) (display : δ) (bytes : ρ) (tracing : Bool) (trace : Trace) :
    SinceReset [] (powerOn keys sounder display bytes tracing trace)
  | reset {ms : List (Machine κ β δ ρ)} {m : Machine κ β δ ρ} :
    SinceReset ms m → SinceReset [] (after reset m)
  | cycle {ms : List (Machine κ β δ ρ)} {m : Machine κ β δ ρ} :
    SinceReset ms m → SinceReset (ms ++ [m]) (after cycle m)
  | loadProgram {ms : List (Machine κ β δ ρ)} {m : Machine κ β δ ρ} (program : List UInt8) :
    SinceReset ms m → SinceReset ms (after (loadProgram program) m)
  | keys {ms : List (Machine κ β δ ρ)} {m : Machine κ β δ ρ} (keys : κ) :
    SinceReset ms m → SinceReset ms (m.withKeys keys)

variable {ms : List (Machine κ β δ ρ)}

theorem SinceReset.reachable (h : SinceReset ms m) : Reachable m := by
  induction h with
  | powerOn keys sounder display bytes tracing trace =>
    exact .powerOn keys sounder display bytes tracing trace
  | reset _ ih => exact ih.reset
  | cycle _ ih => exact ih.cycle
  | loadProgram program _ ih => exact ih.loadProgram program
  | keys keys _ ih => exact ih.keys keys

/-- Every machine that can be reached has a history. -/
theorem exists_sinceReset (h : Reachable m) : ∃ ms, SinceReset ms m := by
  have hcycle : ∀ m : Machine κ β δ ρ, (∃ ms, SinceReset ms m) →
      ∃ ms, SinceReset ms (after Machine.cycle m) := fun _ ⟨_, h⟩ => ⟨_, h.cycle⟩
  induction h with
  | powerOn keys sounder display bytes tracing trace =>
    exact ⟨_, .powerOn keys sounder display bytes tracing trace⟩
  | loadProgram program _ ih => exact ih.imp fun _ h => h.loadProgram program
  | cycle _ ih => exact hcycle _ ih
  | run n _ ih => exact run_induction hcycle n ih
  | reset _ ih => exact ih.elim fun _ h => ⟨_, h.reset⟩
  | keys keys _ ih => exact ih.imp fun _ h => h.keys keys

/-- While all jumps went to even addresses, everything is even. -/
theorem SinceReset.aligned (h : SinceReset ms m)
    (heven : ∀ q ∈ ms, ∀ a, q.target? = some a → a % 2 = 0) : m.cpu.Aligned := by
  induction h with
  | powerOn => exact aligned_powerOn
  | reset => rw [cpu_reset]; exact aligned_powerOn
  | @cycle ms m h ih =>
    have hbefore := ih fun q hq => heven q (List.mem_append_left _ hq)
    obtain ⟨hcalls, hpc⟩ := aligned_cycle (reachable_intact h.reachable).1 hbefore
    exact ⟨hpc.elim id (heven m (by simp) _), hcalls⟩
  | loadProgram program _ ih => exact aligned_loadProgram (ih heven) program
  | keys keys _ ih => exact ⟨(ih heven).pc, (ih heven).calls⟩

/-- While all cycles began at even addresses, the return addresses are even, and the program counter
is even or where the last cycle jumped to. -/
theorem SinceReset.odd (h : SinceReset ms m) (heven : ∀ q ∈ ms, q.cpu.pc % 2 = 0) :
    (∀ a ∈ m.cpu.calls, a % 2 = 0) ∧
      (m.cpu.pc % 2 = 1 → ∃ before q, ms = before ++ [q] ∧ q.target? = some m.cpu.pc) := by
  induction h with
  | powerOn =>
    exact ⟨aligned_powerOn.calls,
      fun hodd => absurd (hodd.symm.trans aligned_powerOn.pc) (by decide)⟩
  | reset =>
    rw [cpu_reset]
    exact ⟨aligned_powerOn.calls,
      fun hodd => absurd (hodd.symm.trans aligned_powerOn.pc) (by decide)⟩
  | @cycle ms m h ih =>
    have hbefore := (ih fun q hq => heven q (List.mem_append_left _ hq)).1
    obtain ⟨hcalls, hpc⟩ := aligned_cycle (reachable_intact h.reachable).1
      ⟨heven m (by simp), hbefore⟩
    exact ⟨hcalls, fun hodd => ⟨ms, m, rfl, hpc.resolve_left (by omega)⟩⟩
  | loadProgram program _ ih =>
    rw [after_loadProgram]
    split <;> exact ih heven
  | keys keys _ ih => exact ih heven

/-- If every jump and call since the last reset went to an even address, program counter and return
addresses are even. So when the program counter is odd for the first time, the last cycle was a jump
or a call, and went there. -/
theorem odd_by_jump_only (h : SinceReset ms m) :
    ((∀ q ∈ ms, ∀ a, q.target? = some a → a % 2 = 0) →
      m.cpu.pc % 2 = 0 ∧ ∀ a ∈ m.cpu.calls, a % 2 = 0) ∧
    ((∀ q ∈ ms, q.cpu.pc % 2 = 0) → m.cpu.pc % 2 = 1 →
      ∃ before q, ms = before ++ [q] ∧ q.target? = some m.cpu.pc) := by
  refine ⟨fun heven => ?_, fun heven => (h.odd heven).2⟩
  have hall := h.aligned heven
  exact ⟨hall.pc, hall.calls⟩

/-- A call and a return, and then a jump to an odd address. Up to the jump everything is even. -/
theorem odd_by_jump_only_after_return :
    ∃ (first second third last : Machine NoKeys BeepCounter Recorder ByteLoop),
      SinceReset [first, second] third ∧ SinceReset [first, second, third] last ∧
      second.cpu.calls = [0x202] ∧ (third.cpu.pc % 2 = 0 ∧ ∀ a ∈ third.cpu.calls, a % 2 = 0) ∧
      last.cpu.pc = 0x209 ∧ third.target? = some 0x209 := by
  obtain ⟨first, hfirst⟩ : ∃ first : Machine NoKeys BeepCounter Recorder ByteLoop,
      first = after (loadProgram [0x22, 0x06, 0x12, 0x09, 0x00, 0x00, 0x00, 0xEE])
        (powerOn {} .fresh .fresh ⟨#[], 0⟩ false (.withLimit none)) := ⟨_, rfl⟩
  have hstart : SinceReset [] first := by
    rw [hfirst]
    exact (SinceReset.powerOn _ _ _ _ _ _).loadProgram _
  have hthird : SinceReset [first, after cycle first] (after cycle (after cycle first)) :=
    hstart.cycle.cycle
  have hlast := hthird.cycle
  obtain ⟨hcalls, htargets, heven, hpc⟩ :
      (after cycle first).cpu.calls = [0x202] ∧
      (∀ q ∈ [first, after cycle first], q.target?.all (· % 2 = 0) = true) ∧
      (∀ q ∈ [first, after cycle first, after cycle (after cycle first)], q.cpu.pc % 2 = 0) ∧
      (after cycle (after cycle (after cycle first))).cpu.pc = 0x209 := by
    rw [hfirst]
    decide +kernel
  obtain ⟨before, q, hms, htarget⟩ := (odd_by_jump_only hlast).2 heven (by rw [hpc]; decide)
  obtain ⟨-, hq⟩ := List.append_inj' hms rfl
  rw [← List.singleton_inj.mp hq, hpc] at htarget
  refine ⟨_, _, _, _, hthird, hlast, hcalls, (odd_by_jump_only hthird).1 fun q hq a ha => ?_, hpc,
    htarget⟩
  simpa [ha] using htargets q hq

end Machine

end Chip8
