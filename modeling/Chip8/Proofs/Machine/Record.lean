import Chip8.Proofs.Machine.Course

/-!
# The records of cycles

A machine that is traced keeps a record of its last cycles, up to a limit. A cycle leaves one
record, whether it fails or not, with one exception: a tone that fails does so after the instruction
was carried out, where nothing is recorded any more. `recorded?` is the record, and
`trace_after_cycle` says that the cycle adds it to the trace and does nothing else to it.

What a trace holds after a number of records is told by `Trace.kept`: the newest of all of them, as
many as the limit allows. It does not matter when the older ones were dropped, since keeping twice
is keeping once.

## Main results

* `Trace.kept_append` — records added one after the other, or all at once
* `record_of_cycle` — what a cycle leaves in the trace
* `records_of_runWith` — what a run leaves in it
-/

namespace Chip8

namespace Trace

/-! ### What a trace keeps -/

/-- The newest of some records, as many as the limit allows. -/
def kept (limit : Option Nat) (es : List Entry) : List Entry :=
  match limit with
  | none => es
  | some n => es.drop (es.length - n)

variable {limit : Option Nat} {n : Nat}

theorem kept_eq_self {es : List Entry} (h : es.length ≤ n) : kept (some n) es = es := by
  rw [kept, Nat.sub_eq_zero_of_le h, List.drop_zero]

/-- What was dropped early would be dropped later as well. -/
theorem kept_append (limit : Option Nat) (es fs : List Entry) :
    kept limit (kept limit es ++ fs) = kept limit (es ++ fs) := by
  cases limit with
  | none => rfl
  | some n =>
    have hcut : es.length - n ≤ es.length := Nat.sub_le _ _
    rw [kept, kept, kept, ← List.drop_append_of_le_length hcut, List.drop_drop, List.length_drop,
      List.length_append]
    congr 1
    omega

/-- With room for one record at least, the newest is kept. -/
theorem kept_concat {es : List Entry} (e : Entry) (h : 1 ≤ n) :
    kept (some n) (es ++ [e]) = es.drop (es.length + 1 - n) ++ [e] := by
  have hcut : es.length + 1 - n ≤ es.length := by omega
  rw [kept, List.length_append, List.length_singleton, List.drop_append_of_le_length hcut]

theorem limit_add (t : Trace) (e : Entry) : (t.add e).limit = t.limit := by
  rw [add]
  split
  · rfl
  · split <;> rfl

theorem toList_add (t : Trace) (e : Entry) :
    (t.add e).entries.toList = kept t.limit (t.entries.toList ++ [e]) := by
  rw [add]
  cases t.limit with
  | none => simp [kept]
  | some n =>
    have hpush : (t.entries.push e).toList = t.entries.toList ++ [e] := Array.toList_push
    by_cases hs : (t.entries.push e).size ≤ n
    · simp only [if_pos hs]
      rw [hpush, kept_eq_self]
      rwa [← hpush, Array.length_toList]
    · simp only [if_neg hs]
      rw [Array.toList_extract, kept, ← hpush, Array.length_toList, List.extract_eq_take_drop]
      exact List.take_of_length_le (by simp)

end Trace

namespace Machine

open Processor Trace

variable {κ β δ ρ : Type} {m m' : Machine κ β δ ρ}

/-! ### One cycle -/

theorem trace_record (before : Processor) (w : Option Word) (failure : Option Fault)
    (h : m.tracing = true) :
    (m.record before w failure).trace =
      m.trace.add ⟨before.pc, w, before.snapshot,
        if failure.isSome then before.snapshot else m.cpu.snapshot,
        failure.map Fault.message⟩ := by
  rw [record, if_pos h]

section Fetch

variable [Sounder β] [Display δ]

theorem fetch_of_passed (h : m.cpu.Intact) (hf : m.faultAt? .fetch = none) :
    fetch m.cpu = .ok m.cpu.word := by
  have hp := faultAt?_fetch_eq_none_iff.mp hf
  rw [fetch_eq h.memory h.pc.1, if_neg (by omega)]

theorem fetch_of_fault {f : Fault} (h : m.cpu.Intact) (hf : m.faultAt? .fetch = some f) :
    fetch m.cpu = .error f := by
  rw [faultAt?] at hf
  split at hf
  · next hp =>
    rw [fetch_eq h.memory h.pc.1, if_pos hp, Option.some.inj hf]
  · contradiction

end Fetch

variable [KeyInput κ] [Sounder β] [Display δ] [ByteSource ρ]

/-- The record that a cycle leaves. -/
def recorded? (m : Machine κ β δ ρ) : Option Trace.Entry :=
  match m.firstFault? with
  | none => some ⟨m.cpu.pc, m.cpu.word, m.cpu.snapshot, m.completed.cpu.snapshot, none⟩
  | some (.fetch, f) => some ⟨m.cpu.pc, none, m.cpu.snapshot, m.cpu.snapshot, f.message⟩
  | some (.sound, _) => none
  | some (_, f) => some ⟨m.cpu.pc, m.cpu.word, m.cpu.snapshot, m.cpu.snapshot, f.message⟩

/-- A cycle adds its record to the trace. -/
theorem trace_after_cycle (h : m.cpu.Intact) (ht : m.tracing = true) :
    (after cycle m).trace = m.recorded?.elim m.trace m.trace.add := by
  rw [after, cycle_eq h, recorded?]
  cases m.firstFault? with
  | none =>
    have hcpu : m.completed.cpu = m.settled.countCycle.cpu := by rw [completed, record_cpu]
    rw [hcpu]
    exact trace_record (m := m.settled.countCycle) _ _ _ ht
  | some sf =>
    obtain ⟨s, f⟩ := sf
    cases s with
    | fetch => exact trace_record _ _ _ ht
    | decode | stack | access => exact trace_record (m := m.past) _ _ _ ht
    | display => exact trace_record (m := { m.past with video := m.videoAfter }) _ _ _ ht
    | sound => rfl

/-- Whether a record tells the truth about the cycle of a machine. -/
structure Tells (m : Machine κ β δ ρ) (e : Trace.Entry) : Prop where
  pc : e.pc = m.cpu.pc
  before : e.before = m.cpu.snapshot
  /-- The word is the two bytes at the program counter, the first of them the high one. -/
  fetched : ∀ w, fetch m.cpu = .ok w → e.word = some w ∧
    w.value = 256 * (m.cpu.byte m.cpu.pc.toNat).toNat + (m.cpu.byte (m.cpu.pc.toNat + 1)).toNat
  unfetched : ∀ f, fetch m.cpu = .error f → e.word = none
  returned : ∀ m', cycle m = .ok () m' → e.after = m'.cpu.snapshot ∧ e.failure = none
  failed : ∀ f m', cycle m = .error f m' → e.after = e.before ∧ e.failure = some f.message

/-- Unless it is the tone that fails, a cycle leaves a record, and the record tells the truth. -/
theorem exists_tells (h : m.cpu.Intact) (hs : ∀ f, m.firstFault? ≠ some (.sound, f)) :
    ∃ e, m.recorded? = some e ∧ m.Tells e := by
  have hcycle := cycle_eq h
  rw [recorded?]
  cases hf : m.firstFault? with
  | none =>
    have hfetch := fetch_of_passed h (firstFault?_eq_none_iff.mp hf .fetch)
    refine ⟨_, rfl, rfl, rfl, ?_, ?_, ?_, ?_⟩ <;> simp [hfetch, hcycle, hf, word]
  | some sf =>
    obtain ⟨s, f⟩ := sf
    obtain ⟨hhere, hbefore⟩ := firstFault?_eq_some_iff.mp hf
    cases s with
    | fetch =>
      have hfetch := fetch_of_fault h hhere
      refine ⟨_, rfl, rfl, rfl, ?_, ?_, ?_, ?_⟩ <;> simp [hfetch, hcycle, hf]
    | decode | stack | access | display =>
      have hfetch := fetch_of_passed h (hbefore .fetch (by decide))
      refine ⟨_, rfl, rfl, rfl, ?_, ?_, ?_, ?_⟩ <;> simp [hfetch, hcycle, hf, word]
    | sound => exact absurd hf (hs f)

/-- What is in the record, of a cycle that leaves one. -/
theorem exists_entry (h : m.cpu.Intact) (hs : ∀ f, m.firstFault? ≠ some (.sound, f)) :
    ∃ e, m.recorded? = some e ∧ e.pc = m.cpu.pc ∧
      (∀ w, fetch m.cpu = .ok w → e.word = some w) ∧
      (∀ f, fetch m.cpu = .error f → e.word = none) ∧
      (∀ m', cycle m = .ok () m' → e.failure = none) ∧
      (∀ f m', cycle m = .error f m' → e.failure = some f.message) := by
  obtain ⟨e, he, ht⟩ := exists_tells h hs
  exact ⟨e, he, ht.pc, fun w hw => (ht.fetched w hw).1, ht.unfetched,
    fun m' hm => (ht.returned m' hm).2, fun f m' hm => (ht.failed f m' hm).2⟩

/-- The trace after a cycle. Unless it is the tone that fails, there is one record more, and at the
limit the oldest one makes room for it. It tells where the word was fetched from, the word unless
the fetch failed, and why the cycle failed if it did. A tone that fails leaves the trace as it
is. -/
theorem record_of_cycle {limit : Nat} (h : m.cpu.Intact) (ht : m.tracing = true)
    (hl : m.trace.limit = some limit) (hpos : 1 ≤ limit) :
    (after cycle m).trace.limit = some limit ∧
    ((∀ f, m.firstFault? ≠ some (.sound, f)) →
      ∃ e, (after cycle m).trace.entries.toList =
          m.trace.entries.toList.drop (m.trace.entries.size + 1 - limit) ++ [e] ∧
        e.pc = m.cpu.pc ∧
        (∀ w, fetch m.cpu = .ok w → e.word = some w) ∧
        (∀ f, fetch m.cpu = .error f → e.word = none) ∧
        (∀ m', cycle m = .ok () m' → e.failure = none) ∧
        (∀ f m', cycle m = .error f m' → e.failure = some f.message)) ∧
    (∀ f, m.firstFault? = some (.sound, f) →
      (∃ m', cycle m = .error f m') ∧ (after cycle m).trace = m.trace) := by
  have htrace := trace_after_cycle h ht
  refine ⟨?_, ?_, ?_⟩
  · rw [htrace]
    cases m.recorded? with
    | none => exact hl
    | some e => exact (limit_add m.trace e).trans hl
  · intro hs
    obtain ⟨e, he, hspec⟩ := exists_entry h hs
    refine ⟨e, ?_, hspec⟩
    rw [htrace, he, Option.elim_some, toList_add, hl, kept_concat e hpos, Array.length_toList]
  · intro f hf
    have hnone : m.recorded? = none := by rw [recorded?, hf]
    refine ⟨⟨_, (cycle_eq_error_iff h).mpr ⟨_, hf, rfl⟩⟩, ?_⟩
    rw [htrace, hnone, Option.elim_none]

/-- A trace with room for one record. After the record of a register that was loaded comes that of a
word that is no instruction. -/
theorem record_of_unknown_word :
    ∃ (m : Machine NoKeys BeepCounter Recorder ByteLoop) (e : Trace.Entry),
      m.trace.entries.size = 1 ∧ (after cycle m).trace.entries.toList = [e] ∧
      e.pc = 0x202 ∧ e.word = some ⟨0x5001⟩ ∧
      e.failure = some "Unknown opcode 0x5001 at 0x202" := by
  obtain ⟨m, hm⟩ : ∃ m : Machine NoKeys BeepCounter Recorder ByteLoop,
      m = after (run 1) (after (loadProgram [0x60, 0x01, 0x50, 0x01])
        (powerOn {} .fresh .fresh ⟨#[], 0⟩ true (.withLimit (some 1)))) := ⟨_, rfl⟩
  have h : m.cpu.Intact := by
    rw [hm]
    exact run_intact (loadProgram_intact intact_powerOn _) 1
  obtain ⟨ht, hl, hsize, hpc, hword, hf⟩ : m.tracing = true ∧ m.trace.limit = some 1 ∧
      m.trace.entries.size = 1 ∧ m.cpu.pc = 0x202 ∧ m.cpu.word = ⟨0x5001⟩ ∧
      m.firstFault? = some (.decode, .unknownWord 0x202 0x5001) := by
    rw [hm]
    decide +kernel
  obtain ⟨-, hrecord, -⟩ := record_of_cycle h ht hl (by decide)
  obtain ⟨e, hlist, hat, hfetched, -, -, hfailed⟩ := hrecord (by simp [hf])
  have hold : m.trace.entries.toList.drop (m.trace.entries.size + 1 - 1) = [] := by
    simp
  rw [hold, List.nil_append] at hlist
  have hfetch := fetch_of_passed h ((firstFault?_eq_some_iff.mp hf).2 .fetch (by decide))
  refine ⟨m, e, hsize, hlist, hat.trans hpc, hword ▸ hfetched _ hfetch, ?_⟩
  rw [hfailed _ _ ((cycle_eq_error_iff h).mpr ⟨_, hf, rfl⟩)]
  decide +kernel

/-- The sound timer is set to one, and the tone fails. The cycle before left a record, and this one
leaves none. -/
theorem no_record_of_failed_tone :
    ∃ m m' : Machine NoKeys BeepCounter Recorder ByteLoop,
      Reachable m ∧ m.tracing = true ∧ m.trace.limit = some Trace.defaultLimit ∧
      m.trace.entries.size = 1 ∧ cycle m = .error (.device (.broken "no sound")) m' ∧
      m'.trace = m.trace := by
  obtain ⟨m, hm⟩ : ∃ m : Machine NoKeys BeepCounter Recorder ByteLoop,
      m = after (run 1) (after (loadProgram [0x60, 0x01, 0xF0, 0x18])
        (powerOn {} ⟨0, some (.broken "no sound")⟩ .fresh ⟨#[], 0⟩ true
          (.withLimit Trace.defaultLimit))) := ⟨_, rfl⟩
  have hr : Reachable m := by
    rw [hm]
    exact .run 1 (.loadProgram _ (.powerOn _ _ _ _ _ _))
  obtain ⟨ht, hl, hsize, hf⟩ : m.tracing = true ∧ m.trace.limit = some Trace.defaultLimit ∧
      m.trace.entries.size = 1 ∧
      m.firstFault? = some (.sound, .device (.broken "no sound")) := by
    rw [hm]
    decide +kernel
  have hi := (reachable_intact hr).1
  exact ⟨m, _, hr, ht, hl, hsize, (cycle_eq_error_iff hi).mpr ⟨_, hf, rfl⟩, rfl⟩

/-! ### A run of cycles -/

/-- The trace after a run of which the last cycle may fail. It keeps the newest of what it held
before and the records of all cycles. -/
theorem records_of_runWith {keys : Nat → κ} {n : Nat} (h : m.cpu.Intact) (ht : m.tracing = true)
    (hfit : kept m.trace.limit m.trace.entries.toList = m.trace.entries.toList)
    (hr : ∀ k < n, ∃ m', runWith keys k m = .ok () m') :
    (after (runWith keys n) m).tracing = true ∧
    (after (runWith keys n) m).trace.limit = m.trace.limit ∧
    (after (runWith keys n) m).trace.entries.toList =
      kept m.trace.limit (m.trace.entries.toList ++
        (List.range n).filterMap fun k => (m.entering keys k).recorded?) := by
  induction n with
  | zero => exact ⟨ht, rfl, by rw [List.range_zero, List.filterMap_nil, List.append_nil, hfit]; rfl⟩
  | succ n ih =>
    obtain ⟨ht', hl', hlist⟩ := ih fun k hk => hr k (Nat.lt_succ_of_lt hk)
    obtain ⟨q, hq⟩ := hr n (Nat.lt_succ_self n)
    have hi : (m.entering keys n).cpu.Intact := entering_intact h n
    have hlast : after (runWith keys (n + 1)) m = after cycle (m.entering keys n) := by
      rw [after, after, runWith_succ hq]
    have htrace := trace_after_cycle hi ht'
    -- With other keys the machine has the same trace.
    change _ = (m.entering keys n).recorded?.elim (after (runWith keys n) m).trace
      (after (runWith keys n) m).trace.add at htrace
    rw [hlast, htrace, List.range_succ, List.filterMap_append, ← List.append_assoc]
    refine ⟨(kept_by_cycle hi).2.trans ht', ?_, ?_⟩
    · cases (m.entering keys n).recorded? with
      | none => exact hl'
      | some e => exact (limit_add _ e).trans hl'
    · cases he : (m.entering keys n).recorded? with
      | none => simpa [he] using hlist
      | some e =>
        rw [Option.elim_some, toList_add, hl', hlist, kept_append]
        simp [he]

end Machine

end Chip8
