import Chip8.Proofs.Machine.Course

/-!
# Calls and returns

The stack is sixteen slots and a number that says how many are in use. A return only lowers the
number, so slots above it keep what was in them, and the next call writes over it. Seen as a list,
`Processor.calls` has none of that: a call puts an address at its end, a return takes the last one
off, and no other instruction touches it, whatever it writes and wherever.

So calls nest. The address that a call leaves stays where it is while there is more on top of it,
and the return that removes it goes there.

## Main results

* `calls_eq` — the list in terms of the slots
* `callsStep_completed` — what a cycle does to it
* `Course.calls_kept` — what is kept while the stack stays above a level
* `calls_nest` — the discipline as a whole
-/

namespace Chip8

namespace Processor

variable {p : Processor}

/-- The addresses in use, slot by slot. -/
theorem calls_eq (h : p.Intact) : p.calls = (List.range p.sp.toNat).map p.slot := by
  have hsp := h.sp
  have hsize := h.stack
  have hpos : position p.stack.size p.sp = p.sp.toNat := by
    rw [position, if_neg (by omega)]
  rw [calls, hpos]
  apply List.ext_getElem
  · simp only [Array.length_toList, Array.size_extract, List.length_map, List.length_range]
    omega
  · intro s hs _
    have hlt : s < p.stack.size := by
      simp only [Array.length_toList, Array.size_extract] at hs
      omega
    simp [slot, hlt]

theorem length_calls (h : p.Intact) : p.calls.length = p.sp.toNat := by
  rw [calls_eq h, List.length_map, List.length_range]

/-- Two stacks with the same addresses in use have the same in each of these slots. -/
theorem slot_eq_of_calls {q : Processor} (hp : p.Intact) (hq : q.Intact)
    (h : p.calls = q.calls) {s : Nat} (hs : s < q.sp.toNat) : p.slot s = q.slot s := by
  have hlen : p.sp.toNat = q.sp.toNat := by
    rw [← length_calls hp, ← length_calls hq, h]
  rw [calls_eq hp, calls_eq hq, hlen] at h
  exact List.map_inj_left.mp h s (List.mem_range.mpr hs)

end Processor

namespace Machine

open Processor

/-! ### One cycle -/

section Step

variable {κ β δ ρ : Type} {m m' : Machine κ β δ ρ}

/-- A call puts the address after itself at the end of the calls, a return takes the last one and
goes there, and any other instruction leaves the calls alone. -/
def CallsStep (m m' : Machine κ β δ ρ) : Prop :=
  match m.instruction? with
  | some .call => m'.cpu.calls = m.cpu.calls ++ [m.cpu.pc + 2]
  | some .ret => m.cpu.calls = m'.cpu.calls ++ [m'.cpu.pc]
  | _ => m'.cpu.calls = m.cpu.calls

/-- A step of the calls keeps what stood at the bottom of them, as far as it leaves that many. -/
theorem CallsStep.keeps (h : m.CallsStep m') {l : List Int} (hl : l <+: m.cpu.calls)
    (hlen : l.length ≤ m'.cpu.calls.length) : l <+: m'.cpu.calls := by
  rw [CallsStep] at h
  split at h
  · rw [h]
    exact hl.trans (List.prefix_append _ _)
  · rw [h] at hl
    exact List.prefix_of_prefix_length_le hl (List.prefix_append _ _) hlen
  · rw [h]
    exact hl

end Step

variable {κ β δ ρ : Type} [KeyInput κ] [Sounder β] [Display δ] [ByteSource ρ]
variable {m : Machine κ β δ ρ}

theorem slot_settled {s : Nat} (h : s < m.cpu.stack.size) :
    m.settled.cpu.slot s = m.slotAfter s (m.cpu.slot s) :=
  getD_mapIdx h m.slotAfter 0

/-- Slots in use keep their addresses. -/
theorem slot_settled_of_lt (h : m.cpu.Intact) {s : Nat} (hs : s < m.cpu.sp.toNat) :
    m.settled.cpu.slot s = m.cpu.slot s := by
  have hsp := h.sp
  rw [slot_settled (by rw [h.stack]; omega), slotAfter, if_neg (by omega)]

/-- The calls after an instruction, as far as it leaves them in use. -/
theorem calls_settled_of_le (h : m.cpu.Intact) (h' : m.settled.cpu.Intact)
    (hle : m.spAfter ≤ m.cpu.sp) :
    m.settled.cpu.calls = (List.range m.spAfter.toNat).map m.cpu.slot := by
  rw [calls_eq h']
  refine List.map_congr_left fun s hs => slot_settled_of_lt h ?_
  have hlt : s < m.spAfter.toNat := List.mem_range.mp hs
  omega

/-- An instruction that is not refused takes a step of the calls. -/
theorem callsStep_settled (h : m.cpu.Intact) (hf : m.faultAt? .fetch = none)
    (hs : m.faultAt? .stack = none) : m.CallsStep m.settled := by
  have h' := settled_intact h hf hs
  have hsp := h.sp
  have hsp' := h'.sp
  have hlaw : m.settled.cpu.sp = m.spAfter := rfl
  rw [CallsStep]
  split
  · next hi =>
    -- A call fills the slot behind those in use.
    have hup : m.spAfter = m.cpu.sp + 1 := by rw [spAfter, hi]
    have htop : m.settled.cpu.slot m.cpu.sp.toNat = m.cpu.pc + 2 := by
      rw [slot_settled (by rw [h.stack]; omega), slotAfter, if_pos ⟨rfl, hi⟩]
    have hrange : m.spAfter.toNat = m.cpu.sp.toNat + 1 := by omega
    rw [calls_eq h', calls_eq h, hlaw, hrange, List.range_succ, List.map_append, List.map_singleton,
      htop, List.map_congr_left fun s hs => slot_settled_of_lt h (List.mem_range.mp hs)]
  · next hi =>
    -- A return goes to the address in the last slot in use.
    have hdown : m.spAfter = m.cpu.sp - 1 := by rw [spAfter, hi]
    have hpc : m.settled.cpu.pc = m.cpu.slot m.spAfter.toNat := by
      change m.pcAfter = _
      rw [pcAfter, hi, hdown]
    have hrange : m.cpu.sp.toNat = m.spAfter.toNat + 1 := by omega
    rw [calls_settled_of_le h h' (by omega), calls_eq h, hrange, List.range_succ, List.map_append,
      List.map_singleton, hpc]
  · next hcall hret =>
    have hkeep : m.spAfter = m.cpu.sp := by
      rw [spAfter]
      split
      · next hi => exact absurd hi hcall
      · next hi => exact absurd hi hret
      · rfl
    rw [calls_settled_of_le h h' (by omega), calls_eq h, hkeep]

theorem callsStep_completed (h : m.cpu.Intact) (hn : m.firstFault? = none) :
    m.CallsStep m.completed := by
  have hpassed := firstFault?_eq_none_iff.mp hn
  rw [CallsStep, cpu_completed]
  exact callsStep_settled h (hpassed .fetch) (hpassed .stack)

/-! ### Courses -/

variable {ms : Nat → Machine κ β δ ρ} {n i j k : Nat}

/-- Every cycle of a course takes a step of the calls. The keys do not matter. -/
theorem Course.callsStep (hc : Course ms n) (h : (ms 0).cpu.Intact) (hk : k < n) :
    (ms k).CallsStep (ms (k + 1)) := by
  obtain ⟨keys, hn, he⟩ := hc.exists_completed h hk
  rw [← he]
  exact callsStep_completed (m := (ms k).withKeys keys) (hc.intact h (Nat.le_of_lt hk)) hn

/-- While the stack stays above the level of a call, the calls up to and with that one stay. -/
theorem Course.calls_kept (hc : Course ms n) (h : (ms 0).cpu.Intact)
    (hi : (ms i).instruction? = some .call) (hij : i < j) (hj : j ≤ n)
    (habove : ∀ k, i < k → k ≤ j → (ms i).cpu.sp < (ms k).cpu.sp) :
    (ms i).cpu.calls ++ [(ms i).cpu.pc + 2] <+: (ms j).cpu.calls := by
  have hin : i < n := Nat.lt_of_lt_of_le hij hj
  have hlow := hc.intact h (Nat.le_of_lt hin)
  induction hij with
  | refl =>
    have hstep := hc.callsStep h hin
    rw [CallsStep, hi] at hstep
    exact hstep ▸ List.prefix_refl _
  | @step j hij ih =>
    have hkept := ih (Nat.le_of_succ_le hj) fun k hk hkj => habove k hk (Nat.le_succ_of_le hkj)
    refine (hc.callsStep h hj).keeps hkept ?_
    have hhigh := habove j.succ (Nat.lt_succ_of_le (Nat.le_of_succ_le hij)) (Nat.le_refl _)
    have hsp := hlow.sp
    rw [List.length_append, List.length_singleton, length_calls hlow,
      length_calls (hc.intact h hj)]
    omega

/-- The cycle that brings the stack back to the level of a call is a return, and it goes back behind
the call. -/
theorem Course.returns (hc : Course ms n) (h : (ms 0).cpu.Intact)
    (hi : (ms i).instruction? = some .call) (hij : i < j) (hj : j < n)
    (habove : ∀ k, i < k → k ≤ j → (ms i).cpu.sp < (ms k).cpu.sp)
    (hback : (ms (j + 1)).cpu.sp = (ms i).cpu.sp) :
    (ms j).instruction? = some .ret ∧ (ms (j + 1)).cpu.pc = (ms i).cpu.pc + 2 ∧
      (ms (j + 1)).cpu.calls = (ms i).cpu.calls := by
  have hlow := hc.intact h (Nat.le_of_lt (Nat.lt_trans hij hj))
  have hnext := hc.intact h hj
  have hkept := hc.calls_kept h hi hij (Nat.le_of_lt hj) habove
  have hstep := hc.callsStep h hj
  have hlen : (ms (j + 1)).cpu.calls.length = (ms i).cpu.calls.length := by
    rw [length_calls hnext, length_calls hlow, hback]
  have hdrop : (ms (j + 1)).cpu.calls.length < (ms j).cpu.calls.length := by
    have := hkept.length_le
    rw [List.length_append, List.length_singleton] at this
    omega
  rw [CallsStep] at hstep
  split at hstep
  · rw [hstep, List.length_append] at hdrop
    omega
  · next hret =>
    rw [hstep] at hkept
    have heq := hkept.eq_of_length (by simp only [List.length_append, List.length_singleton, hlen])
    obtain ⟨hcalls, hpc⟩ := List.append_inj' heq rfl
    exact ⟨hret, (List.singleton_inj.mp hpc).symm, hcalls.symm⟩
  · rw [hstep] at hdrop
    omega

/-- Calls nest. The calls are a stack of at most sixteen addresses, as many as the stack pointer
says; only a call puts one on top, the address after itself, and only a return takes one off. So
when the stack comes back to the level that it had at a call, it does so by a return that goes back
behind the call, and the slots below are what they were. -/
theorem calls_nest (h : (ms 0).cpu.Intact) (hc : Course ms n) :
    (∀ k ≤ n, (ms k).cpu.calls.length = (ms k).cpu.sp ∧
      (ms k).cpu.calls.length ≤ stackDepth) ∧
    (∀ k < n,
      match (ms k).instruction? with
      | some .call => (ms (k + 1)).cpu.calls = (ms k).cpu.calls ++ [(ms k).cpu.pc + 2]
      | some .ret => (ms k).cpu.calls = (ms (k + 1)).cpu.calls ++ [(ms (k + 1)).cpu.pc]
      | _ => (ms (k + 1)).cpu.calls = (ms k).cpu.calls) ∧
    (∀ i j, (ms i).instruction? = some .call → i < j → j < n →
      (∀ k, i < k → k ≤ j → (ms i).cpu.sp < (ms k).cpu.sp) →
      (ms (j + 1)).cpu.sp = (ms i).cpu.sp →
      (ms j).instruction? = some .ret ∧ (ms (j + 1)).cpu.pc = (ms i).cpu.pc + 2 ∧
      ∀ s < (ms i).cpu.sp.toNat, (ms (j + 1)).cpu.slot s = (ms i).cpu.slot s) := by
  refine ⟨?_, fun k hk => hc.callsStep h hk, ?_⟩
  · intro k hk
    have hk' := hc.intact h hk
    have hsp := hk'.sp
    have hlen := length_calls hk'
    omega
  · intro i j hi hij hj habove hback
    obtain ⟨hret, hpc, hcalls⟩ := hc.returns h hi hij hj habove hback
    exact ⟨hret, hpc, fun s hs => slot_eq_of_calls (hc.intact h hj)
      (hc.intact h (Nat.le_of_lt (Nat.lt_trans hij hj))) hcalls hs⟩

/-- A subroutine that calls another one and then writes over the word that called itself. Its return
goes behind that word even so. -/
theorem calls_nest_over_overwritten_call :
    ∃ ms : Nat → Machine NoKeys BeepCounter Recorder ByteLoop,
      ms 0 = headless (Processor.powerOn.withProgram
        [0x22, 0x06, 0x12, 0x02, 0x00, 0xEE, 0x22, 0x04, 0xA2, 0x00, 0xF0, 0x55, 0x00, 0xEE]) ∧
      Course ms 6 ∧ (ms 6).cpu.byte 0x200 = 0 ∧
      (ms 5).instruction? = some .ret ∧ (ms 6).cpu.pc = 0x202 := by
  have h : (Processor.powerOn.withProgram
      [0x22, 0x06, 0x12, 0x02, 0x00, 0xEE, 0x22, 0x04,
        0xA2, 0x00, 0xF0, 0x55, 0x00, 0xEE]).Intact :=
    intact_powerOn.withProgram (by decide)
  obtain ⟨m, hm⟩ : ∃ m, m = headless (Processor.powerOn.withProgram
    [0x22, 0x06, 0x12, 0x02, 0x00, 0xEE, 0x22, 0x04,
      0xA2, 0x00, 0xF0, 0x55, 0x00, 0xEE]) := ⟨_, rfl⟩
  obtain ⟨hok, habove, hcall, hback, hbyte, hpc0⟩ :
      (∀ k < 6, (after (run k) m).firstFault? = none) ∧
      (∀ k < 6, 0 < k → m.cpu.sp < (after (run k) m).cpu.sp) ∧
      m.instruction? = some .call ∧ (after (run 6) m).cpu.sp = m.cpu.sp ∧
      (after (run 6) m).cpu.byte 0x200 = 0 ∧ m.cpu.pc + 2 = 0x202 := by
    rw [hm]
    decide +kernel
  have hc := course_run (run_of_firstFault? (hm ▸ h) hok)
  obtain ⟨-, -, hnest⟩ := calls_nest (hm ▸ h) hc
  obtain ⟨hret, hpc, -⟩ := hnest 0 5 hcall (by decide) (by decide)
    (fun k hk hk5 => habove k (Nat.lt_succ_of_le hk5) hk) hback
  exact ⟨_, hm, hc, hbyte, hret, hpc.trans hpc0⟩

end Machine

end Chip8
