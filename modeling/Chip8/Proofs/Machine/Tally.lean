import Chip8.Proofs.Machine.Bare

/-!
# How often a run uses its devices

A recorder counts the screens that it is handed, and a beep counter how often it is sounded. What
they have counted at the end of a run can be told from the machines that its cycles begin with: a
cycle that does not fail hands over a screen if its instruction clears the screen or draws on it,
and sounds the tone if the sound timer is at one when it is about to run down.

Both counts are followed through a run by the same induction, `tally_run`. It asks for no more than
what one cycle adds.

## Main definitions

* `Machine.presents`, `Machine.sounds` — whether a cycle uses the display, or the tone
* `Machine.tally` — the number of cycles of a run that are of a given kind

## Main results

* `Machine.count_display_run` — the screens that a recorder was handed
* `Machine.count_sounder_run` — how often a beep counter was sounded
-/

namespace Chip8

namespace Machine

section Tally

variable {κ β δ ρ : Type} [KeyInput κ] [Sounder β] [Display δ] [ByteSource ρ]

/-- Whether the cycle does not fail and hands over a screen. -/
def presents (m : Machine κ β δ ρ) : Bool := m.firstFault?.isNone && m.shown?.isSome

/-- Whether the cycle does not fail and sounds the tone. -/
def sounds (m : Machine κ β δ ρ) : Bool := m.firstFault?.isNone && m.soundSet == 1

/-- The number of cycles of a run that begin with a machine of a given kind. -/
def tally (p : Machine κ β δ ρ → Bool) (n : Nat) (m : Machine κ β δ ρ) : Nat :=
  (List.range (attempts n m)).countP fun k => p (after (run k) m)

variable {p : Machine κ β δ ρ → Bool} {m m' : Machine κ β δ ρ} {n : Nat}

theorem tally_of_ok (h : cycle m = .ok () m') : tally p (n + 1) m = (p m).toNat + tally p n m' := by
  have hrest : (fun k => p (after (run k) m)) ∘ Nat.succ = fun k => p (after (run k) m') := by
    funext k
    simp only [Function.comp_apply, after, run, h]
  have hfirst : after (run 0) m = m := rfl
  simp only [tally, attempts, h]
  rw [List.range_succ_eq_map, List.countP_cons, List.countP_map, hrest, hfirst, Nat.add_comm]
  cases p m <;> rfl

theorem tally_of_error {f : Fault} (h : cycle m = .error f m') :
    tally p (n + 1) m = (p m).toNat := by
  have hfirst : after (run 0) m = m := rfl
  simp only [tally, attempts, h]
  rw [List.range_one, List.countP_singleton, hfirst]
  cases p m <;> rfl

/-- What each cycle adds to a number of its machine is added up by a run. -/
theorem tally_run {I : Machine κ β δ ρ → Prop} (size : Machine κ β δ ρ → Nat)
    (hkept : ∀ m, I m → I (after cycle m))
    (hsize : ∀ m, I m → size (after cycle m) = size m + (p m).toNat) (h : I m) (n : Nat) :
    size (after (run n) m) = size m + tally p n m := by
  induction n generalizing m with
  | zero => rfl
  | succ n ih =>
    have hm := hsize m h
    have hI := hkept m h
    cases hc : cycle m with
    | error f m' =>
      rw [after, hc] at hm
      rw [tally_of_error hc, after, run, hc]
      exact hm
    | ok _ m' =>
      rw [after, hc] at hm hI
      have hrun : after (run (n + 1)) m = after (run n) m' := by rw [after, run, hc]; rfl
      rw [tally_of_ok hc, hrun, ih hI, hm, Nat.add_assoc]

/-- A cycle of a machine that no device disturbs leaves the devices alone if it fails. -/
theorem Calm.devices_of_fault (h : m.Calm) (hf : m.firstFault? ≠ none) :
    (after Machine.cycle m).video = m.video ∧ (after Machine.cycle m).sounder = m.sounder := by
  obtain ⟨⟨s, f⟩, hs⟩ := Option.ne_none_iff_exists'.mp hf
  have hat := (firstFault?_eq_some_iff.mp hs).1
  rw [after, cycle_eq h.intact, hs]
  cases s with
  | fetch | decode | stack | access => exact ⟨video_record _ _ _, sounder_record _ _ _⟩
  | display =>
    rw [faultAt?, h.displayFailure?] at hat
    contradiction
  | sound =>
    rw [faultAt?, h.soundFailure?] at hat
    contradiction

end Tally

/-! ### Devices that count -/

variable {κ ρ : Type} [KeyInput κ] [ByteSource ρ] {m : Machine κ BeepCounter Recorder ρ}

/-- A machine that no device disturbs, with a recorder that takes every screen. -/
structure Counting (m : Machine κ BeepCounter Recorder ρ) : Prop where
  calm : m.Calm
  capacity : m.display.capacity = none

theorem Counting.cycle (h : m.Counting) : (after Machine.cycle m).Counting := by
  refine ⟨h.calm.cycle, ?_⟩
  obtain hv | ⟨s, hv⟩ := video_after_cycle h.calm.intact
  · rw [display, hv]
    exact h.capacity
  · rw [display, hv, Recorder.present_eq h.capacity]
    exact h.capacity

/-- The screens that a recorder was handed in a run. -/
theorem count_display_run (h : m.Counting) (n : Nat) :
    (after (run n) m).display.count = m.display.count + tally presents n m := by
  refine tally_run (I := Counting) (·.display.count) (fun _ => Counting.cycle) (fun m h => ?_) h n
  rw [presents]
  cases hf : m.firstFault? with
  | some sf =>
    rw [display, (h.calm.devices_of_fault (by simp [hf])).1]
    rfl
  | none =>
    rw [display, after, (cycle_eq_ok_iff h.calm.intact).mpr ⟨hf, rfl⟩]
    dsimp only
    rw [video_completed, videoAfter]
    cases m.shown? with
    | none => rfl
    | some s =>
      dsimp only
      rw [Recorder.present_eq h.capacity]
      rfl

/-- How often a beep counter was sounded in a run. -/
theorem count_sounder_run (h : m.Counting) (n : Nat) :
    (after (run n) m).sounder.count = m.sounder.count + tally sounds n m := by
  refine tally_run (I := Counting) (·.sounder.count) (fun _ => Counting.cycle) (fun m h => ?_) h n
  rw [sounds]
  cases hf : m.firstFault? with
  | some sf =>
    rw [(h.calm.devices_of_fault (by simp [hf])).2]
    rfl
  | none =>
    rw [after, (cycle_eq_ok_iff h.calm.intact).mpr ⟨hf, rfl⟩]
    dsimp only
    rw [sounder_completed, sounderAfter]
    by_cases hs : m.soundSet = 1
    · rw [if_pos hs, hs]
      rfl
    · rw [if_neg hs, beq_false_of_ne hs]
      rfl

end Machine

end Chip8
