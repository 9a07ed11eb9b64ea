import Chip8.Proofs.Machine.Record
import Mathlib.Data.List.Basic

/-!
# The trace is the end of the history

A machine that was switched on or reset, with tracing on, has no records. Every cycle from then on
leaves one, the last of them even if it fails, so the records of all cycles are the history of the
machine. The trace holds the end of it, as far as its limit allows.

The trace is looked at when the run is over, and each entry is compared with the machine that its
cycle began with. So nothing in an entry is changed by later cycles.

## Main definitions

* `Machine.Fresh` — a machine that was switched on or reset
* `Machine.history` — the trace after a run

## Main results

* `fresh_powerOn`, `fresh_reset`, `Fresh.loadProgram` — the machines that are fresh
* `exists_records` — the records of all cycles
* `trace_is_tail` — the trace after a run
-/

namespace Chip8

/-- Where there is something for each member of a list, nothing is left out. -/
theorem map_some_filterMap {α ε : Type} {l : List α} {g : α → Option ε}
    (h : ∀ a ∈ l, ∃ e, g a = some e) : (l.filterMap g).map some = l.map g := by
  induction l with
  | nil => rfl
  | cons a l ih =>
    obtain ⟨e, he⟩ := h a List.mem_cons_self
    rw [List.filterMap_cons_some he, List.map_cons, List.map_cons, he,
      ih fun b hb => h b (List.mem_cons_of_mem a hb)]

namespace Machine

open Processor Trace

variable {κ β δ ρ : Type} {m : Machine κ β δ ρ} {limit : Nat}

/-! ### Fresh machines -/

/-- An intact machine that is traced, and has not run since it was switched on or reset. -/
structure Fresh (limit : Nat) (m : Machine κ β δ ρ) : Prop where
  intact : m.cpu.Intact
  cycles : m.cpu.cycles = 0
  tracing : m.tracing = true
  trace : m.trace = .withLimit limit

theorem fresh_powerOn (keys : κ) (sounder : β) (display : δ) (bytes : ρ) :
    (powerOn keys sounder display bytes true (.withLimit (some limit))).Fresh limit :=
  ⟨intact_powerOn, rfl, rfl, rfl⟩

/-- A reset drops the records, even if the display fails. -/
theorem fresh_reset [Display δ] (ht : m.tracing = true) (hl : m.trace.limit = some limit) :
    (after reset m).Fresh limit := by
  obtain ⟨v, hv⟩ := after_reset m
  rw [hv]
  exact ⟨intact_powerOn, rfl, ht, by rw [← hl]; rfl⟩

theorem Fresh.loadProgram (h : m.Fresh limit) (program : List UInt8) :
    (after (loadProgram program) m).Fresh limit := by
  have hi := loadProgram_intact h.intact program
  have hc := cycles_loadProgram (m := m) program
  refine ⟨hi, hc.trans h.cycles, ?_, ?_⟩
  · rw [after_loadProgram]
    split <;> exact h.tracing
  · rw [after_loadProgram]
    split <;> exact h.trace

/-! ### The history -/

variable [KeyInput κ] [Sounder β] [Display δ] [ByteSource ρ] {keys : Nat → κ} {n k : Nat}

/-- What the trace holds after a run. -/
def history (keys : Nat → κ) (n : Nat) (m : Machine κ β δ ρ) : List Trace.Entry :=
  (after (runWith keys n) m).trace.entries.toList

/-- Each cycle of a run leaves a record, and the records tell the truth. -/
theorem exists_recorded (hi : m.cpu.Intact) (hr : ∀ k < n, ∃ m', runWith keys k m = .ok () m')
    (hd : m.NoDeviceFails keys n) (hk : k < n) :
    ∃ e, (m.entering keys k).recorded? = some e ∧ (m.entering keys k).Tells e := by
  obtain ⟨q, hq⟩ := hr k hk
  have hnow : (m.entering keys k).cpu.Intact := entering_intact hi k
  refine exists_tells hnow fun f hf => ?_
  exact (stage_of_no_device hnow (hd.cycle hk hq) hf).2 rfl

/-- The records of all cycles, of which the trace holds the newest. -/
theorem exists_records (h : m.Fresh limit) (hr : ∀ k < n, ∃ m', runWith keys k m = .ok () m')
    (hd : m.NoDeviceFails keys n) :
    ∃ es : List Trace.Entry, es.length = n ∧ m.history keys n = es.drop (n - limit) ∧
      ∀ k e, es[k]? = some e → (m.entering keys k).Tells e := by
  have hrecorded := fun k hk => exists_recorded (k := k) h.intact hr hd hk
  have hall := map_some_filterMap (l := List.range n)
    (g := fun k => (m.entering keys k).recorded?) fun k hk =>
      (hrecorded k (List.mem_range.mp hk)).imp fun _ => And.left
  generalize hes : (List.range n).filterMap (fun k => (m.entering keys k).recorded?) = es at hall
  have hlength : es.length = n := by simpa using congrArg List.length hall
  have hempty : kept m.trace.limit m.trace.entries.toList = m.trace.entries.toList := by
    rw [h.trace]
    exact kept_eq_self (Nat.zero_le limit)
  obtain ⟨-, -, hlist⟩ := records_of_runWith h.intact h.tracing hempty hr
  refine ⟨es, hlength, ?_, fun k e he => ?_⟩
  · rw [history, hlist, hes, h.trace]
    change kept (some limit) es = _
    rw [kept, hlength]
  · have hk : k < n := hlength ▸ (List.getElem?_eq_some_iff.mp he).1
    obtain ⟨e', he', ht⟩ := hrecorded k hk
    have hat := congrArg (·[k]?) hall
    simp only [List.getElem?_map, he, List.getElem?_range hk, Option.map_some, he',
      Option.some.injEq] at hat
    exact hat ▸ ht

theorem Tells.cycle_eq {e : Trace.Entry} (h : m.Fresh limit)
    (hr : ∃ m', runWith keys k m = .ok () m') (ht : (m.entering keys k).Tells e) :
    e.cycle = k := by
  obtain ⟨q, hq⟩ := hr
  have hc := cycles_runWith h.intact hq
  rw [Entry.cycle, ht.before, entering_of_ok hq]
  change q.cpu.cycles = k
  rw [hc, h.cycles, Int.zero_add]

/-- The state after a cycle is the state before the next. -/
theorem Tells.before_eq_after {e e' : Trace.Entry} (hr : ∃ m', runWith keys (k + 1) m = .ok () m')
    (ht : (m.entering keys k).Tells e) (ht' : (m.entering keys (k + 1)).Tells e') :
    e'.before = e.after := by
  obtain ⟨q, hq⟩ := hr
  have hc := cycle_entering hq (Nat.lt_succ_self k)
  rw [ht'.before, (ht.returned _ hc).1]
  rfl

/-- The trace is the end of the history. After a run of which only the last cycle may fail, it holds
the records of the last cycles in their order, as many as the limit allows. The cycles are numbered
from zero. Each record tells the truth about its cycle, the next one goes on where it ends, and only
the last tells of a failure. -/
theorem trace_is_tail (h : m.Fresh limit) (hr : ∀ k < n, ∃ m', runWith keys k m = .ok () m')
    (hd : m.NoDeviceFails keys n) :
    (m.history keys n).length = min n limit ∧
    (∀ i e, (m.history keys n)[i]? = some e →
      e.cycle = ((n - min n limit + i : Nat) : Int) ∧ e.pc = e.before.pc ∧
      (m.entering keys (n - min n limit + i)).Tells e ∧
      (e.failure ≠ none → i + 1 = min n limit)) ∧
    (∀ i e e', (m.history keys n)[i]? = some e → (m.history keys n)[i + 1]? = some e' →
      e'.before = e.after) := by
  obtain ⟨es, hlength, hhistory, htells⟩ := exists_records h hr hd
  have hskip : n - limit = n - min n limit := by omega
  have hat : ∀ i, (m.history keys n)[i]? = es[n - min n limit + i]? := by
    intro i
    rw [hhistory, List.getElem?_drop, hskip]
  have hlt : ∀ {k e}, es[k]? = some e → k < n := fun he =>
    hlength ▸ (List.getElem?_eq_some_iff.mp he).1
  refine ⟨?_, fun i e he => ?_, fun i e e' he he' => ?_⟩
  · rw [hhistory, List.length_drop, hlength]
    omega
  · rw [hat] at he
    have ht := htells _ e he
    have hk := hlt he
    refine ⟨ht.cycle_eq h (hr _ hk), ?_, ht, fun hfailed => ?_⟩
    · rw [ht.pc, ht.before]
      rfl
    · -- Any other cycle returned, so its record has no failure.
      refine Decidable.byContradiction fun hlast => ?_
      obtain ⟨q, hq⟩ := hr (n - min n limit + i + 1) (by omega)
      exact hfailed (ht.returned _ (cycle_entering hq (Nat.lt_succ_self _))).2
  · rw [hat] at he he'
    have ht := htells _ e he
    have ht' := htells _ e' he'
    exact ht.before_eq_after (hr _ (hlt he')) ht'

/-- Three cycles with room for two records. The first is gone, and the last is that of a word that
is no instruction. -/
theorem trace_is_tail_of_three_cycles :
    ∃ (m : Machine NoKeys BeepCounter Recorder ByteLoop) (e e' : Trace.Entry),
      m.history (fun _ => {}) 3 = [e, e'] ∧ e.cycle = 1 ∧ e'.cycle = 2 ∧ e.failure = none ∧
      e'.failure = some "Unknown opcode 0x5001 at 0x204" ∧ e'.before = e.after ∧
      e'.after = e'.before := by
  obtain ⟨m, hm⟩ : ∃ m : Machine NoKeys BeepCounter Recorder ByteLoop,
      m = after (loadProgram [0x60, 0x02, 0x61, 0x03, 0x50, 0x01])
        (powerOn {} .fresh .fresh ⟨#[], 0⟩ true (.withLimit (some 2))) := ⟨_, rfl⟩
  have h : m.Fresh 2 := by
    rw [hm]
    exact (fresh_powerOn _ _ _ _).loadProgram _
  obtain ⟨hnone, hsome⟩ : (∀ k < 2, (m.entering (fun _ => {}) k).firstFault? = none) ∧
      (m.entering (fun _ => {}) 2).firstFault? = some (.decode, .unknownWord 0x204 0x5001) := by
    rw [hm]
    decide +kernel
  have hr : ∀ k < 3, ∃ m', runWith (fun _ => {}) k m = .ok () m' := fun k hk =>
    ⟨_, runWith_of_firstFault? h.intact fun j hj => hnone j (by omega)⟩
  have hlast : cycle (m.entering (fun _ => {}) 2) = .error (.unknownWord 0x204 0x5001) _ :=
    (cycle_eq_error_iff (entering_intact h.intact 2)).mpr ⟨_, hsome, rfl⟩
  have hd : m.NoDeviceFails (fun _ => {}) 3 := by
    obtain ⟨q, hq⟩ := hr 2 (by decide)
    intro reason m' he
    rw [runWith_succ hq, hlast] at he
    cases he
  obtain ⟨hlength, hentries, hchain⟩ := trace_is_tail h hr hd
  obtain ⟨e, e', hes⟩ := List.length_eq_two.mp hlength
  rw [hes] at hentries hchain
  obtain ⟨hcycle, -, -, hfailure⟩ := hentries 0 e rfl
  obtain ⟨hcycle', -, ht, -⟩ := hentries 1 e' rfl
  obtain ⟨hafter, hfailed⟩ := ht.failed _ _ hlast
  refine ⟨m, e, e', hes, hcycle, hcycle', ?_, ?_, hchain 0 e e' rfl rfl, hafter⟩
  · exact Decidable.byContradiction fun hne => absurd (hfailure hne) (by decide)
  · rw [hfailed]
    decide +kernel

end Machine

end Chip8
