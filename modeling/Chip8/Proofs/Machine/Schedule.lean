import Chip8.Proofs.Machine.Reachable

/-!
# Runs under a schedule of keys

Cycles in a row, with other keys before each of them: the schedule says which keys cycle `k` finds.
Everything else goes from one cycle to the next, so a schedule and a machine settle the whole run.
The run ends with the first cycle that fails.

Everything that comes of a run under a schedule can be said of the machines that its cycles begin
with. Two machines can be run under the same schedule, too.

## Main definitions

* `Machine.withKeys`, `Machine.runWith` — a change of keys, and a run under a schedule
* `Machine.entering` — the machine that a cycle of the run begins with
* `Machine.NoDeviceFails` — that neither the tone nor the display ends the run

## Main results

* `runWith_of_le`, `runWith_of_error` — the beginning of a run, and what comes after a failure
* `runWith_intact`, `cycles_runWith` — the machines of a run
-/

namespace Chip8

namespace Machine

open Processor

variable {κ β δ ρ : Type}

/-- A machine with other keys. -/
def withKeys (m : Machine κ β δ ρ) (keys : κ) : Machine κ β δ ρ := { m with keys := keys }

variable [KeyInput κ] [Sounder β] [Display δ] [ByteSource ρ]

/-- A number of cycles, or fewer if one fails. Cycle `k` finds the keys `keys k`. -/
def runWith (keys : Nat → κ) : Nat → Action κ β δ ρ Unit
  | 0, m => .ok () m
  | n + 1, m =>
    match runWith keys n m with
    | .ok _ m' => cycle (m'.withKeys (keys n))
    | .error f m' => .error f m'

/-- The machine that cycle `k` begins with. -/
def entering (keys : Nat → κ) (k : Nat) (m : Machine κ β δ ρ) : Machine κ β δ ρ :=
  (after (runWith keys k) m).withKeys (keys k)

/-- Whether a run does without a failure of the tone or the display. It may fail for other
reasons. -/
def NoDeviceFails (keys : Nat → κ) (n : Nat) (m : Machine κ β δ ρ) : Prop :=
  ∀ reason m', runWith keys n m ≠ .error (.device reason) m'

variable {keys : Nat → κ} {m m' : Machine κ β δ ρ} {k n : Nat} {f : Fault}

/-! ### Parts of a run -/

theorem entering_of_ok (h : runWith keys k m = .ok () m') :
    m.entering keys k = m'.withKeys (keys k) := by
  rw [entering, after, h]

/-- One more cycle. -/
theorem runWith_succ (h : runWith keys n m = .ok () m') :
    runWith keys (n + 1) m = cycle (m.entering keys n) := by
  rw [runWith, h, entering_of_ok h]

/-- A run that does not fail has not failed on the way. -/
theorem runWith_of_le (h : runWith keys n m = .ok () m') (hk : k ≤ n) :
    runWith keys k m = .ok () (after (runWith keys k) m) := by
  induction n generalizing m' with
  | zero =>
    obtain rfl := Nat.le_zero.mp hk
    rfl
  | succ n ih =>
    obtain hlt | rfl := Nat.lt_or_eq_of_le hk
    · cases hr : runWith keys n m with
      | ok _ q => exact ih hr (Nat.le_of_lt_succ hlt)
      | error f q =>
        rw [runWith, hr] at h
        contradiction
    · rw [after, h]

/-- After a failure nothing is run any more. -/
theorem runWith_of_error (h : runWith keys k m = .error f m') (hk : k ≤ n) :
    runWith keys n m = .error f m' := by
  induction n with
  | zero =>
    obtain rfl := Nat.le_zero.mp hk
    exact h
  | succ n ih =>
    obtain hlt | rfl := Nat.lt_or_eq_of_le hk
    · rw [runWith, ih (Nat.le_of_lt_succ hlt)]
    · exact h

/-- The cycles of a run that does not fail. -/
theorem cycle_entering (h : runWith keys n m = .ok () m') (hk : k < n) :
    cycle (m.entering keys k) = .ok () (after (runWith keys (k + 1)) m) := by
  rw [← runWith_succ (runWith_of_le h (Nat.le_of_lt hk))]
  exact runWith_of_le h hk

theorem NoDeviceFails.of_le (h : m.NoDeviceFails keys n) (hk : k ≤ n) : m.NoDeviceFails keys k :=
  fun reason m' he => h reason m' (runWith_of_error he hk)

/-! ### The machines of a run -/

/-- What changes of keys and cycles keep to, a run keeps to. -/
theorem runWith_induction {P : Machine κ β δ ρ → Prop}
    (hkeys : ∀ m keys, P m → P (m.withKeys keys)) (hcycle : ∀ m, P m → P (after cycle m))
    (n : Nat) (h : P m) : P (after (runWith keys n) m) := by
  induction n with
  | zero => exact h
  | succ n ih =>
    cases hr : runWith keys n m with
    | ok _ q =>
      have hlast := hcycle _ (hkeys _ (keys n) ih)
      rw [after, runWith_succ hr]
      exact hlast
    | error f q =>
      rw [after, hr] at ih
      rw [after, runWith_of_error hr (Nat.le_succ n)]
      exact ih

theorem runWith_intact (h : m.cpu.Intact) (n : Nat) : (after (runWith keys n) m).cpu.Intact :=
  runWith_induction (P := fun m => m.cpu.Intact) (fun _ _ h => h) (fun _ => cycle_intact) n h

theorem entering_intact (h : m.cpu.Intact) (k : Nat) : (m.entering keys k).cpu.Intact :=
  runWith_intact h k

/-- All cycles of a run that does not fail are counted. -/
theorem cycles_runWith (h : m.cpu.Intact) (hr : runWith keys n m = .ok () m') :
    m'.cpu.cycles = m.cpu.cycles + n := by
  induction n generalizing m' with
  | zero =>
    obtain rfl : m = m' := by simpa [runWith] using hr
    exact (Int.add_zero _).symm
  | succ n ih =>
    have hbefore := ih (runWith_of_le hr (Nat.le_succ n))
    have hlast := cycle_entering hr (Nat.lt_succ_self n)
    obtain ⟨-, hc⟩ := (cycle_eq_ok_iff (entering_intact h n)).mp hlast
    have hend : after (runWith keys (n + 1)) m = m' := by rw [after, hr]
    have hcycles : (m.entering keys n).cpu.cycles = m.cpu.cycles + n := hbefore
    rw [← hend, ← hc, cpu_completed, hcycles, Int.natCast_succ, Int.add_assoc]

/-- A run does not fail if no cycle of it has a fault at any stage. -/
theorem runWith_of_firstFault? (h : m.cpu.Intact)
    (hn : ∀ k < n, (m.entering keys k).firstFault? = none) :
    runWith keys n m = .ok () (after (runWith keys n) m) := by
  induction n with
  | zero => rfl
  | succ n ih =>
    have hr := ih fun k hk => hn k (Nat.lt_succ_of_lt hk)
    have hc := (cycle_eq_ok_iff (entering_intact h n)).mpr ⟨hn n (Nat.lt_succ_self n), rfl⟩
    rw [after, runWith_succ hr, hc]

/-- No cycle changes the keys, or whether the machine is traced. -/
theorem kept_by_cycle (h : m.cpu.Intact) :
    (after cycle m).keys = m.keys ∧ (after cycle m).tracing = m.tracing := by
  rw [after, cycle_eq h]
  cases m.firstFault? with
  | none =>
    rw [completed_eq]
    exact ⟨rfl, rfl⟩
  | some sf =>
    obtain ⟨s, f⟩ := sf
    cases s with
    | fetch | decode | stack | access | display =>
      simp only [leftAt]
      rw [record_eq]
      exact ⟨rfl, rfl⟩
    | sound => exact ⟨rfl, rfl⟩

/-! ### Failures of devices -/

/-- The stages at which a cycle fails in which no device does. -/
theorem stage_of_no_device {s : Stage} (h : m.cpu.Intact)
    (hd : ∀ reason m', cycle m ≠ .error (.device reason) m') (hs : m.firstFault? = some (s, f)) :
    s ≠ .display ∧ s ≠ .sound := by
  have hf := (firstFault?_eq_some_iff.mp hs).1
  have hno : ∀ reason, f ≠ .device reason := by
    rintro reason rfl
    exact hd reason _ ((cycle_eq_error_iff h).mpr ⟨s, hs, rfl⟩)
  constructor
  · rintro rfl
    obtain ⟨reason, -, he⟩ := Option.map_eq_some_iff.mp hf
    exact hno reason he.symm
  · rintro rfl
    obtain ⟨reason, -, he⟩ := Option.map_eq_some_iff.mp hf
    exact hno reason he.symm

/-- No device fails in a cycle of a run in which none does. -/
theorem NoDeviceFails.cycle (h : m.NoDeviceFails keys n) (hk : k < n)
    (hr : runWith keys k m = .ok () m') (reason : DeviceFailure) (m'' : Machine κ β δ ρ) :
    Machine.cycle (m.entering keys k) ≠ .error (.device reason) m'' := by
  rw [← runWith_succ hr]
  exact h.of_le hk reason m''

end Machine

end Chip8
