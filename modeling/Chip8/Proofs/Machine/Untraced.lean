import Chip8.Proofs.Machine.Record

/-!
# Machines that are not traced

To record a cycle is to look at it. So a machine that is traced runs as the same machine does
without tracing: the devices are the same ones and come to the same, and only the records are
missing.

Unlike the bare machine, a machine that is not traced keeps its devices, and it may fail because of
them. That is why nothing has to be said about the devices here.

A record is compared with the machine that its cycle began with. It tells the truth about that
machine whether the machine is traced or not, so the records of a run can be judged by a run without
tracing.

## Main definitions

* `Machine.untraced` — a machine without tracing

## Main results

* `cycle_untraced`, `run_untraced` — a cycle and a run
* `Tells.untraced` — records, judged by machines that are not traced
-/

namespace Chip8

namespace Machine

variable {κ β δ ρ : Type} {m : Machine κ β δ ρ}

/-- A machine with tracing off. -/
def untraced (m : Machine κ β δ ρ) : Machine κ β δ ρ :=
  { m with tracing := false, trace := .withLimit Trace.defaultLimit }

/-- How an action ends, without the records. -/
def untracedResult {α : Type} :
    EStateM.Result Fault (Machine κ β δ ρ) α → EStateM.Result Fault (Machine κ β δ ρ) α
  | .ok a m => .ok a m.untraced
  | .error f m => .error f m.untraced

theorem untraced_record (before : Processor) (w : Option Word) (failure : Option Fault) :
    (m.record before w failure).untraced = m.untraced := by
  rw [record_eq]
  rfl

theorem loadProgram_untraced (program : List UInt8) (m : Machine κ β δ ρ) :
    loadProgram program m.untraced = untracedResult (loadProgram program m) := by
  rw [loadProgram_eq, loadProgram_eq]
  split <;> rfl

variable [KeyInput κ] [Sounder β] [Display δ] [ByteSource ρ]

theorem completed_untraced (m : Machine κ β δ ρ) : m.untraced.completed = m.completed.untraced := by
  rw [completed, completed, untraced_record]
  rfl

theorem leftAt_untraced (m : Machine κ β δ ρ) (f : Fault) (s : Stage) :
    m.untraced.leftAt f s = (m.leftAt f s).untraced := by
  cases s with
  | fetch | decode | stack | access | display =>
    rw [leftAt, leftAt, untraced_record]
    rfl
  | sound => rfl

/-- A cycle that is not recorded does the same. -/
theorem cycle_untraced (h : m.cpu.Intact) : cycle m.untraced = untracedResult (cycle m) := by
  have hcpu : m.untraced.cpu.Intact := h
  have hfault : m.untraced.firstFault? = m.firstFault? := rfl
  rw [cycle_eq h, cycle_eq hcpu, hfault]
  cases m.firstFault? with
  | none => exact congrArg (EStateM.Result.ok ()) (completed_untraced m)
  | some sf => exact congrArg (EStateM.Result.error sf.2) (leftAt_untraced m sf.2 sf.1)

theorem run_untraced (h : m.cpu.Intact) (n : Nat) :
    run n m.untraced = untracedResult (run n m) := by
  induction n generalizing m with
  | zero => rfl
  | succ n ih =>
    have hnext := cycle_intact h
    rw [after] at hnext
    rw [run, run, cycle_untraced h]
    cases hc : cycle m with
    | ok _ m' =>
      rw [hc] at hnext
      exact ih hnext
    | error f m' => rfl

theorem after_run_untraced (h : m.cpu.Intact) (n : Nat) :
    after (run n) m.untraced = (after (run n) m).untraced := by
  rw [after, after, run_untraced h]
  cases run n m <;> rfl

theorem stopped?_run_untraced (h : m.cpu.Intact) (n : Nat) :
    stopped? (run n) m.untraced = stopped? (run n) m := by
  rw [stopped?, stopped?, run_untraced h]
  cases run n m <;> rfl

theorem attempts_untraced (h : m.cpu.Intact) (n : Nat) : attempts n m.untraced = attempts n m := by
  induction n generalizing m with
  | zero => rfl
  | succ n ih =>
    have hnext := cycle_intact h
    rw [after] at hnext
    rw [attempts, attempts, cycle_untraced h]
    cases hc : cycle m with
    | ok _ m' =>
      rw [hc] at hnext
      exact congrArg (· + 1) (ih hnext)
    | error f m' => rfl

/-- A record that tells the truth about a machine tells the truth about it without tracing as
well. -/
theorem Tells.untraced {e : Trace.Entry} (ht : m.Tells e) (h : m.cpu.Intact) :
    m.untraced.Tells e where
  pc := ht.pc
  before := ht.before
  fetched := ht.fetched
  unfetched := ht.unfetched
  returned m' hc := by
    rw [cycle_untraced h] at hc
    cases hr : cycle m with
    | ok _ q =>
      rw [hr] at hc
      obtain rfl := (EStateM.Result.ok.inj hc).2
      exact ht.returned q hr
    | error f q =>
      rw [hr] at hc
      cases hc
  failed f m' hc := by
    rw [cycle_untraced h] at hc
    cases hr : cycle m with
    | ok _ q =>
      rw [hr] at hc
      cases hc
    | error f' q =>
      rw [hr] at hc
      obtain ⟨rfl, -⟩ := EStateM.Result.error.inj hc
      exact ht.failed f' q hr

end Machine

end Chip8
