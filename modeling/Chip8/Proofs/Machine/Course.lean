import Chip8.Proofs.Machine.Schedule

/-!
# Courses of cycles

A course is a sequence of machines in which each comes out of the one before it by a cycle that does
not fail. Between two cycles keys may be pressed and let go; nothing else changes from outside. So
the word at the program counter is whatever is in memory by then, be it part of the program or
written by it.

Theorems about courses speak of the machines by number, which is what relations between two distant
moments need. That one moment is followed by the next comes down to `Course.exists_completed`.

## Main results

* `run_add`, `run_of_le` — runs, taken apart
* `run_attempts`, `exists_run_of_lt_attempts` — the cycles that a run begins
* `run_eq_runWith` — a run, as a run under a schedule
* `course_run` — a run that does not fail is a course
* `Course.intact`, `Course.exists_completed` — the machines of a course
-/

namespace Chip8

namespace Machine

open Processor

variable {κ β δ ρ : Type} [KeyInput κ] [Sounder β] [Display δ] [ByteSource ρ]
variable {m m' : Machine κ β δ ρ}

/-! ### Runs -/

/-- A run goes on where a shorter one ends. -/
theorem run_add (a b : Nat) (m : Machine κ β δ ρ) :
    run (a + b) m =
      match run a m with
      | .ok _ m' => run b m'
      | .error f m' => .error f m' := by
  induction a generalizing m with
  | zero => rw [Nat.zero_add]; rfl
  | succ a ih =>
    rw [Nat.succ_add]
    simp only [run]
    cases cycle m with
    | ok _ m' => exact ih m'
    | error f m' => rfl

theorem run_one (m : Machine κ β δ ρ) : run 1 m = cycle m := by
  rw [run]
  cases cycle m <;> rfl

/-- One more cycle. -/
theorem run_succ {n : Nat} (h : run n m = .ok () m') : run (n + 1) m = cycle m' := by
  rw [run_add, h]
  exact run_one m'

/-- A run ends with the first of its cycles that fails. -/
theorem run_of_cycle_error {k n : Nat} {f : Fault} {m'' : Machine κ β δ ρ} (hk : k < n)
    (hr : run k m = .ok () m') (he : cycle m' = .error f m'') : run n m = .error f m'' := by
  obtain ⟨rest, rfl⟩ := Nat.exists_eq_add_of_le (Nat.succ_le_of_lt hk)
  rw [run_add, run_succ hr, he]

/-- A run that does not fail has not failed on the way. -/
theorem run_of_le {k n : Nat} (h : run n m = .ok () m') (hk : k ≤ n) :
    run k m = .ok () (after (run k) m) := by
  obtain ⟨d, rfl⟩ := Nat.exists_eq_add_of_le hk
  rw [run_add] at h
  rw [after]
  cases hr : run k m with
  | ok _ q => rfl
  | error f q =>
    rw [hr] at h
    contradiction

/-- The cycles of a run that does not fail. -/
theorem cycle_of_run {k n : Nat} (h : run n m = .ok () m') (hk : k < n) :
    cycle (after (run k) m) = .ok () (after (run (k + 1)) m) := by
  rw [← run_succ (run_of_le h (Nat.le_of_lt hk))]
  exact run_of_le h hk

theorem run_intact (h : m.cpu.Intact) (n : Nat) : (after (run n) m).cpu.Intact :=
  run_induction (P := fun m => m.cpu.Intact) (fun _ => cycle_intact) n h

theorem keys_after_run (h : m.cpu.Intact) (n : Nat) : (after (run n) m).keys = m.keys := by
  have hkept := run_induction (P := fun q => q.cpu.Intact ∧ q.keys = m.keys)
    (fun q hq => ⟨cycle_intact hq.1, (kept_by_cycle hq.1).1.trans hq.2⟩) n ⟨h, rfl⟩
  exact hkept.2

/-- A run is a run under the schedule that never changes. -/
theorem run_eq_runWith (h : m.cpu.Intact) (n : Nat) : run n m = runWith (fun _ => m.keys) n m := by
  induction n with
  | zero => rfl
  | succ n ih =>
    cases hr : run n m with
    | error f q => rw [run_add, hr, runWith_of_error (ih.symm.trans hr) (Nat.le_succ n)]
    | ok _ q =>
      have hkeys := keys_after_run h n
      rw [after, hr] at hkeys
      have hsame : q.withKeys m.keys = q := by rw [withKeys, ← hkeys]
      rw [run_succ hr, runWith_succ (ih.symm.trans hr), entering_of_ok (ih.symm.trans hr), hsame]

theorem entering_const (h : m.cpu.Intact) (k : Nat) :
    m.entering (fun _ => m.keys) k = after (run k) m := by
  rw [entering, after, ← run_eq_runWith h, ← after, withKeys, ← keys_after_run h k]

/-- All cycles of a run that does not fail are counted. -/
theorem cycles_run {n : Nat} (h : m.cpu.Intact) (hr : run n m = .ok () m') :
    m'.cpu.cycles = m.cpu.cycles + n :=
  cycles_runWith h ((run_eq_runWith h n).symm.trans hr)

/-- A cycle that fails is not counted. -/
theorem cycles_of_error {f : Fault} (h : m.cpu.Intact) (he : cycle m = .error f m') :
    m'.cpu.cycles = m.cpu.cycles := by
  obtain ⟨s, -, rfl⟩ := (cycle_eq_error_iff h).mp he
  cases s <;> simp only [leftAt, record_cpu] <;> rfl

/-- The fault that stops an action, if one does. -/
def stopped? (a : Action κ β δ ρ Unit) (m : Machine κ β δ ρ) : Option Fault :=
  match a m with
  | .ok _ _ => none
  | .error f _ => some f

/-- The number of cycles that a run begins. One that fails is the last. -/
def attempts : Nat → Machine κ β δ ρ → Nat
  | 0, _ => 0
  | n + 1, m =>
    match cycle m with
    | .ok _ m' => attempts n m' + 1
    | .error _ _ => 1

/-- The cycles that are begun are all there is to the run. -/
theorem run_attempts (n : Nat) (m : Machine κ β δ ρ) : run (attempts n m) m = run n m := by
  induction n generalizing m with
  | zero => rfl
  | succ n ih =>
    rw [attempts, run]
    cases hc : cycle m with
    | ok _ m' =>
      simp only [run, hc]
      exact ih m'
    | error f m' => simp only [run, hc]

/-- All cycles before the last did not fail. -/
theorem exists_run_of_lt_attempts {n k : Nat} (h : k < attempts n m) :
    ∃ m', run k m = .ok () m' := by
  induction n generalizing m k with
  | zero => exact absurd h (Nat.not_lt_zero k)
  | succ n ih =>
    cases k with
    | zero => exact ⟨m, rfl⟩
    | succ k =>
      rw [attempts] at h
      rw [run]
      cases hc : cycle m with
      | ok _ q =>
        rw [hc] at h
        exact ih (Nat.lt_of_succ_lt_succ h)
      | error f q =>
        rw [hc] at h
        exact absurd (Nat.lt_of_succ_lt_succ h) (Nat.not_lt_zero k)

/-- A run does not fail if no cycle of it has a fault at any stage. -/
theorem run_of_firstFault? {n : Nat} (h : m.cpu.Intact)
    (hn : ∀ k < n, (after (run k) m).firstFault? = none) :
    run n m = .ok () (after (run n) m) := by
  have hr := runWith_of_firstFault? h fun k hk => (entering_const h k).symm ▸ hn k hk
  rwa [after, ← run_eq_runWith h] at hr

/-! ### Courses -/

/-- Cycle by cycle, none of the first `n` fails. Cycle `k` leads from machine `k` to the next one,
with any keys. -/
def Course (ms : Nat → Machine κ β δ ρ) (n : Nat) : Prop :=
  ∀ k < n, ∃ keys : κ, cycle ((ms k).withKeys keys) = .ok () (ms (k + 1))

/-- A run that does not fail is a course. -/
theorem course_run {n : Nat} (h : run n m = .ok () m') :
    Course (fun k => after (run k) m) n :=
  fun k hk => ⟨(after (run k) m).keys, cycle_of_run h hk⟩

variable {ms : Nat → Machine κ β δ ρ} {n k : Nat}

theorem Course.intact (hc : Course ms n) (h : (ms 0).cpu.Intact) (hk : k ≤ n) :
    (ms k).cpu.Intact := by
  induction k with
  | zero => exact h
  | succ k ih =>
    obtain ⟨keys, he⟩ := hc k hk
    have hnext := cycle_intact (m := (ms k).withKeys keys) (ih (Nat.le_of_succ_le hk))
    rwa [after, he] at hnext

/-- Each machine of a course is what the cycle before it comes to. -/
theorem Course.exists_completed (hc : Course ms n) (h : (ms 0).cpu.Intact) (hk : k < n) :
    ∃ keys : κ, ((ms k).withKeys keys).firstFault? = none ∧
      ((ms k).withKeys keys).completed = ms (k + 1) := by
  obtain ⟨keys, he⟩ := hc k hk
  have hk' : ((ms k).withKeys keys).cpu.Intact := hc.intact h (Nat.le_of_lt hk)
  exact ⟨keys, (cycle_eq_ok_iff hk').mp he⟩

end Machine

end Chip8
