import Chip8.Proofs.Assembly.Strict
import Chip8.Proofs.Machine.Observer
import Chip8.Proofs.Machine.Tally
import Chip8.Proofs.Workbench.Report
import Mathlib.Data.List.DropRight

/-!
# The page of a program

A page is made for every request: whatever the program is, something comes of it that can be shown.
Two things have to be said for that.

What ends a run has to be a fault that is caught. The machine has others, for devices that fail and
for processors that somebody has tampered with, and nothing at all could be shown of those. And a
page is put together from the records of cycles, in which the registers after a cycle are looked up
by the names of the registers before it. `strictPage` is the workbench with a crash in the place of
each such step that has no result, down to those of the assembler, and `strictPage_eq` says that it
never crashes.

What the page says is compared with a machine that nobody watches: the same devices, but no tracing.
Its screen is the picture, and its numbers are the numbers of the page. There is no listing to be
compared. So each line of it is held against the machine that its cycle begins with.

## Main definitions

* `Crash`, `strictPage` — the workbench that may crash
* `plainMachine`, `cycleLines` — the machine that a page tells of, and the lines about its cycles

## Main results

* `strictPage_eq` — no crash
* `exists_records_of_run` — the records of a run
* `page_tells_the_run` — the page of every request
-/

namespace Chip8

/-- Whether a fault is caught when a page is made: a fault of the machine itself, and not of its
devices. -/
def Fault.isCaught : Fault → Bool
  | unknownWord _ _ | programTooLarge _ _ | outsideMemory _ | stackFull _ | stackEmpty _ => true
  | _ => false

/-! ### Records -/

theorem Snapshot.lostRegister?_eq_none {before after : Snapshot}
    (h : before.registers.length ≤ after.registers.length) : before.lostRegister? after = none := by
  rw [lostRegister?, List.drop_eq_nil_of_le h]
  rfl

theorem Processor.Intact.length_namedRegisters {p : Processor} (h : p.Intact) :
    p.namedRegisters.length = registerCount := by
  have hregisters : p.registers.toList.length = registerCount :=
    Array.length_toList.trans h.registers
  rw [namedRegisters, List.length_zip, hregisters]
  rfl

namespace Machine

variable {κ β δ ρ : Type} [KeyInput κ] [Sounder β] [Display δ] [ByteSource ρ]
variable {m m' : Machine κ β δ ρ} {limit n : Nat} {es : List Trace.Entry} {f : Fault}

/-- A cycle loses no register. -/
theorem Tells.lostRegister? {e : Trace.Entry} (ht : m.Tells e) (h : m.cpu.Intact) :
    e.before.lostRegister? e.after = none := by
  refine Snapshot.lostRegister?_eq_none (Nat.le_of_eq ?_)
  cases hc : cycle m with
  | error f m' => rw [(ht.failed f m' hc).1]
  | ok _ m' =>
    have hi' : m'.cpu.Intact := by
      have hi := cycle_intact h
      rwa [after, hc] at hi
    rw [ht.before, (ht.returned m' hc).1]
    exact h.length_namedRegisters.trans hi'.length_namedRegisters.symm

/-- Every cycle of a run of a fresh machine leaves a record with its number, and the record tells
the truth. The trace holds the newest of them, as many as the limit allows. -/
theorem exists_records_of_run (h : m.Fresh limit) (hc : m.Calm) (n : Nat) :
    ∃ all : List Trace.Entry, all.length = attempts n m ∧
      (after (run n) m).trace.entries.toList = all.rtake limit ∧
      ∀ k e, all[k]? = some e → (after (run k) m).Tells e ∧ e.cycle = k := by
  have hkeys := run_eq_runWith h.intact
  have hr : ∀ k < attempts n m, ∃ m', runWith (fun _ => m.keys) k m = .ok () m' := fun k hk => by
    rw [← hkeys]
    exact exists_run_of_lt_attempts hk
  obtain ⟨all, hlength, hhistory, htells⟩ := exists_records h hr (hc.noDeviceFails _ _)
  refine ⟨all, hlength, ?_, fun k e he => ?_⟩
  · rw [List.rtake, hlength, ← hhistory, history, after, after, ← hkeys, run_attempts]
  · have hk : k < attempts n m := hlength ▸ (List.getElem?_eq_some_iff.mp he).1
    have ht := htells k e he
    refine ⟨?_, ht.cycle_eq h (hr k hk)⟩
    rwa [entering_const h.intact] at ht

/-- The cycles that a run begins return, apart from the last. -/
theorem exists_cycle_of_succ_lt_attempts {k : Nat} (h : k + 1 < attempts n m) :
    ∃ q, cycle (after (run k) m) = .ok () q := by
  obtain ⟨q, hq⟩ := exists_run_of_lt_attempts h
  have hp := run_of_le hq (Nat.le_succ k)
  rw [run_succ hp] at hq
  exact ⟨q, hq⟩

theorem lostRegister?_run (h : m.Fresh limit) (hc : m.Calm) (n : Nat) :
    (after (run n) m).lostRegister? = none := by
  obtain ⟨all, -, hentries, htells⟩ := exists_records_of_run h hc n
  refine List.findSome?_eq_none_iff.mpr fun e he => ?_
  rw [hentries, List.rtake] at he
  obtain ⟨k, hk⟩ := List.getElem?_of_mem (List.mem_of_mem_drop he)
  exact (htells k e hk).1.lostRegister? (run_intact h.intact k)

/-- What ends a run in which no device fails is a fault of the machine itself. -/
theorem isCaught_of_stopped? (h : m.Calm) (hs : stopped? (run n) m = some f) :
    f.isCaught = true := by
  induction n generalizing m with
  | zero => cases hs
  | succ n ih =>
    rw [stopped?, run] at hs
    cases hc : cycle m with
    | ok _ q =>
      have hq := h.cycle
      rw [after, hc] at hq
      rw [hc] at hs
      exact ih hq hs
    | error g q =>
      rw [hc] at hs
      obtain rfl := Option.some.inj hs
      obtain ⟨s, hs, -⟩ := (cycle_eq_error_iff h.intact).mp hc
      have hf := (firstFault?_eq_some_iff.mp hs).1
      have harises := arises_of_faultAt? hf
      cases g with
      | device reason =>
        obtain rfl | rfl := stage_of_device hf
        · rw [faultAt?, h.displayFailure?] at hf
          cases hf
        · rw [faultAt?, h.soundFailure?] at hf
          cases hf
      | unknownWord | outsideMemory | stackFull | stackEmpty => rfl
      | _ => cases harises

end Machine

namespace Workbench

open Machine Text

/-! ### The workbench that may crash -/

/-- What would end the workbench without a page. -/
inductive Crash where
  /-- A source text is neither assembled nor refused. -/
  | assembler (mishap : Assembly.Mishap)
  /-- A run ends with a fault that is not caught. -/
  | fault (f : Fault)
  /-- A register is gone after a cycle. -/
  | lostRegister (name : String)
  deriving DecidableEq, Repr

/-- The page of a run. -/
def strictPageOf (m : BenchMachine) (stopped : Option Fault) : Except Crash Page :=
  match stopped.filter (!·.isCaught), m.lostRegister? with
  | some f, _ => .error (.fault f)
  | none, some name => .error (.lostRegister name)
  | none, none => .ok (pageOf m stopped)

/-- The page of a program that is run for a number of cycles. -/
def strictRunProgram (program : List UInt8) (cycles : Quantity) (seed : Int) :
    Except (Crash ⊕ Failure) Page :=
  match Machine.loadProgram program (benchMachine seed) with
  | .error f m => (strictPageOf m (some f)).mapError .inl
  | .ok _ m => do
    let n ← cycles.truncate.mapError fun p => .inr (.quantity p)
    match Machine.run n.toNat m with
    | .error f m => (strictPageOf m (some f)).mapError .inl
    | .ok _ m => (strictPageOf m none).mapError .inl

/-- The page of a request. -/
def strictPage (request : Request) (cycles : Quantity) (seed : Option Quantity) :
    Except (Crash ⊕ Failure) Page :=
  let run (program : List UInt8) : Except (Crash ⊕ Failure) Page := do
    let seed ← (seed.getD (.whole 0)).truncate.mapError fun p => .inr (.quantity p)
    strictRunProgram program cycles seed
  match request with
  | .file bytes => run bytes
  | .source text =>
    if (strip text.toList).isEmpty then .ok (.failed "No program provided")
    else
      match Assembly.strictAssembleChars text.toList with
      | .error (.inl mishap) => .error (.inl (.assembler mishap))
      | .error (.inr r) => .ok (.failed r.message)
      | .ok program => run program

variable {m : BenchMachine} {stopped : Option Fault}

theorem strictPageOf_eq (hcaught : ∀ f ∈ stopped, f.isCaught = true)
    (hlost : m.lostRegister? = none) : strictPageOf m stopped = .ok (pageOf m stopped) := by
  have hnone : stopped.filter (!·.isCaught) = none :=
    Option.filter_eq_none_iff.mpr fun f hf => by simp [hcaught f hf]
  rw [strictPageOf, hnone, hlost]

/-! ### Runs of the workbench -/

/-- What holds of the machine of the workbench when the program is in memory. -/
structure Ready (m : BenchMachine) : Prop where
  fresh : m.Fresh traceLimit
  calm : m.Calm
  shown : m.display.last.getD .blank = m.screen
  capacity : m.display.capacity = none

theorem ready_benchMachine (seed : Int) : Ready (benchMachine seed) where
  fresh := fresh_powerOn _ _ _ _
  calm := calm_powerOn (BeepCounter.reliable rfl) (Recorder.steady rfl) _ _ _ _
  shown := rfl
  capacity := rfl

theorem Ready.loadProgram (h : Ready m) (program : List UInt8) :
    Ready (after (loadProgram program) m) where
  fresh := h.fresh.loadProgram program
  calm := h.calm.loadProgram program
  shown := by
    rw [display, screen, video_loadProgram]
    exact h.shown
  capacity := by
    rw [display, video_loadProgram]
    exact h.capacity

/-- The last screen that was presented is the screen. -/
theorem Ready.shown_run (h : Ready m) (n : Nat) :
    (after (run n) m).display.last.getD .blank = (after (run n) m).screen := by
  have hkept := run_induction (P := fun m : BenchMachine => m.cpu.Intact ∧
    m.display.last.getD .blank = m.screen ∧ m.display.capacity = none) ?_ n
    ⟨h.calm.intact, h.shown, h.capacity⟩
  · exact hkept.2.1
  · rintro m ⟨hi, hs, hc⟩
    refine ⟨cycle_intact hi, ?_⟩
    obtain hv | ⟨s, hv⟩ := video_after_cycle hi
    · rw [display, screen, hv]
      exact ⟨hs, hc⟩
    · rw [display, screen, hv, Recorder.present_eq hc]
      exact ⟨rfl, hc⟩

/-- A program that is too large is refused before anything is done. -/
theorem of_loadProgram_error {program : List UInt8} {f : Fault} {m' : BenchMachine}
    (h : loadProgram program m = .error f m') : m' = m ∧ f.isCaught = true := by
  rw [loadProgram_eq] at h
  split at h
  · obtain ⟨rfl, rfl⟩ := EStateM.Result.error.inj h
    exact ⟨rfl, rfl⟩
  · cases h

/-- A run can be put on a page wherever it ends. -/
theorem Ready.strictPageOf_run (h : Ready m) (n : Nat) :
    strictPageOf (after (run n) m) (stopped? (run n) m) =
      .ok (pageOf (after (run n) m) (stopped? (run n) m)) :=
  strictPageOf_eq (fun _ => isCaught_of_stopped? h.calm) (lostRegister?_run h.fresh h.calm n)

theorem runProgram_eq (program : List UInt8) (cycles : Quantity) (seed : Int) :
    runProgram program cycles seed =
      match Machine.loadProgram program (benchMachine seed) with
      | .error f m => .ok (pageOf m (some f))
      | .ok _ m => do
        let n ← cycles.truncate.mapError .quantity
        return pageOf (after (run n.toNat) m) (stopped? (run n.toNat) m) := by
  rw [runProgram]
  cases Machine.loadProgram program (benchMachine seed) with
  | error f m => rfl
  | ok _ m =>
    cases cycles.truncate with
    | error p => rfl
    | ok n =>
      change (match run n.toNat m with
        | .error f m => return pageOf m (some f)
        | .ok _ m => return pageOf m none) =
          Except.ok (pageOf (after (run n.toNat) m) (stopped? (run n.toNat) m))
      dsimp only [after, stopped?]
      cases run n.toNat m <;> rfl

theorem strictRunProgram_eq (program : List UInt8) (cycles : Quantity) (seed : Int) :
    strictRunProgram program cycles seed = (runProgram program cycles seed).mapError .inr := by
  have hloaded := (ready_benchMachine seed).loadProgram program
  rw [after] at hloaded
  rw [strictRunProgram, runProgram_eq]
  cases hl : loadProgram program (benchMachine seed) with
  | error f m =>
    obtain ⟨rfl, hf⟩ := of_loadProgram_error hl
    have hpage : strictPageOf (benchMachine seed) (some f) = .ok _ :=
      strictPageOf_eq (by rintro _ ⟨⟩; exact hf) rfl
    change (strictPageOf (benchMachine seed) (some f)).mapError Sum.inl = _
    rw [hpage]
    rfl
  | ok _ m =>
    rw [hl] at hloaded
    cases cycles.truncate with
    | error p => rfl
    | ok n =>
      have hpage := hloaded.strictPageOf_run n.toNat
      dsimp only [after, stopped?] at hpage
      change (match run n.toNat m with
        | .error f m => (strictPageOf m (some f)).mapError Sum.inl
        | .ok _ m => (strictPageOf m none).mapError Sum.inl) =
          .ok (pageOf (after (run n.toNat) m) (stopped? (run n.toNat) m))
      dsimp only [after, stopped?]
      cases hr : run n.toNat m with
      | error f m' =>
        rw [hr] at hpage
        exact congrArg (Except.mapError Sum.inl) hpage
      | ok _ m' =>
        rw [hr] at hpage
        exact congrArg (Except.mapError Sum.inl) hpage

/-- The workbench does not crash. -/
theorem strictPage_eq (request : Request) (cycles : Quantity) (seed : Option Quantity) :
    strictPage request cycles seed = (page request cycles seed).mapError .inr := by
  have hrun : ∀ program : List UInt8,
      (do
        let seed ← (seed.getD (.whole 0)).truncate.mapError fun p => Sum.inr (.quantity p)
        strictRunProgram program cycles seed) =
      Except.mapError Sum.inr (do
        let seed ← ((seed.getD (.whole 0)).truncate).mapError .quantity
        runProgram program cycles seed) := by
    intro program
    cases (seed.getD (.whole 0)).truncate with
    | error p => rfl
    | ok s => exact strictRunProgram_eq program cycles s
  cases request with
  | file bytes => exact hrun bytes
  | source text =>
    simp only [strictPage, page, assemble, Assembly.strictAssembleChars_eq]
    split
    · rfl
    · cases Assembly.assembleChars text.toList with
      | error r => rfl
      | ok program => exact hrun program

/-! ### Pages -/

/-- The machine that a page tells of: nobody presses a key, and cycles are not recorded. -/
def plainMachine (seed : Int) : BenchMachine :=
  powerOn {} .fresh .fresh (.ofSeed seed) false (.withLimit Trace.defaultLimit)

theorem untraced_benchMachine (seed : Int) : (benchMachine seed).untraced = plainMachine seed := rfl

/-- What a page says of the cycles of a run, if it has room for all of them. -/
def cycleLines (n : Nat) (m : BenchMachine) : List String :=
  (List.range (attempts n m)).map fun k => cycleLine k (after (run k) m)

/-- The records of a run give the lines of its last cycles, whether these are recorded or not. -/
theorem Ready.map_traceLine (h : Ready m) (n : Nat) :
    (after (run n) m).trace.entries.toList.map traceLine =
      (cycleLines n m.untraced).rtake 200 := by
  have hi := h.calm.intact
  have hlimit : traceLimit = 200 := rfl
  obtain ⟨all, hlength, hentries, htells⟩ := exists_records_of_run h.fresh h.calm n
  have hall : all.map traceLine = cycleLines n m.untraced := by
    refine List.ext_getElem? fun k => ?_
    rw [cycleLines, attempts_untraced hi, List.getElem?_map, List.getElem?_map]
    by_cases hk : k < all.length
    · obtain ⟨ht, hcycle⟩ := htells k _ (List.getElem?_eq_getElem hk)
      have hline := traceLine_eq (m := (after (run k) m).untraced) (run_intact hi k)
        (ht.untraced (run_intact hi k)) hcycle
      rw [List.getElem?_eq_getElem hk, List.getElem?_range (hlength ▸ hk), Option.map_some, hline,
        Option.map_some, after_run_untraced hi]
    · rw [List.getElem?_eq_none (Nat.le_of_not_lt hk), List.getElem?_eq_none (by simp; omega)]
      rfl
  rw [hentries, hlimit, List.rtake, List.map_drop, hall, List.rtake, ← hall, List.length_map]

/-- The program of a request, or the reason why there is none. -/
def Request.program : Request → Except String (List UInt8)
  | .file bytes => .ok bytes
  | .source text =>
    if text.toList.all isBlank then .error "No program provided"
    else (assemble text).mapError (·.message)

theorem page_eq (request : Request) (n : Int) (seed : Option Int) :
    page request (.whole n) (seed.map .whole) =
      match request.program with
      | .error reason => .ok (.failed reason)
      | .ok program => runProgram program (.whole n) (seed.getD 0) := by
  have hrun (program : List UInt8) :
      (do
        let seed ← ((seed.map Quantity.whole).getD (.whole 0)).truncate.mapError .quantity
        runProgram program (.whole n) seed) = runProgram program (.whole n) (seed.getD 0) := by
    cases seed <;> exact pure_bind _ _
  cases request with
  | file bytes => exact hrun bytes
  | source text =>
    have hstrip : (strip text.toList).isEmpty = text.toList.all isBlank := by
      rw [Bool.eq_iff_iff, List.isEmpty_iff, strip_eq_nil_iff, List.all_eq_true]
    rw [page, Request.program, hstrip]
    by_cases hb : text.toList.all isBlank = true
    · rw [if_pos hb, if_pos hb]
    · rw [if_neg hb, if_neg hb]
      cases assemble text with
      | error r => rfl
      | ok program => exact hrun program

/-- What a run is put on a page as. -/
theorem exists_shows (program : List UInt8) (n seed : Int) :
    ∃ p, runProgram program (.whole n) seed = .ok p ∧
      match loadProgram program (plainMachine seed) with
      | .error f m => p.Shows m (some f) []
      | .ok _ m =>
        p.Shows (after (run n.toNat) m) (stopped? (run n.toNat) m)
          ((cycleLines n.toNat m).rtake 200) := by
  have hready := ready_benchMachine seed
  have hloaded := hready.loadProgram program
  rw [after] at hloaded
  rw [runProgram_eq, ← untraced_benchMachine, loadProgram_untraced]
  cases hl : loadProgram program (benchMachine seed) with
  | error f m =>
    obtain ⟨rfl, -⟩ := of_loadProgram_error hl
    exact ⟨_, rfl, shows_pageOf hready.calm.intact hready.shown rfl (some f)⟩
  | ok _ m =>
    rw [hl] at hloaded
    have hi := hloaded.calm.intact
    refine ⟨_, rfl, ?_⟩
    dsimp only [untracedResult]
    rw [after_run_untraced hi, stopped?_run_untraced hi]
    exact shows_pageOf (run_intact hi _) (hloaded.shown_run n.toNat)
      (hloaded.map_traceLine n.toNat) _

/-- The machine that a page tells of has counted nothing before it runs. -/
theorem counting_of_loadProgram {program : List UInt8} {seed : Int} {m : BenchMachine}
    (h : loadProgram program (plainMachine seed) = .ok () m) :
    m.Counting ∧ m.display.count = 0 ∧ m.sounder.count = 0 := by
  have hpowerOn : (plainMachine seed).Calm :=
    calm_powerOn (BeepCounter.reliable rfl) (Recorder.steady rfl) _ _ _ _
  have hcalm := hpowerOn.loadProgram program
  rw [after, h] at hcalm
  rw [loadProgram_eq] at h
  split at h
  · contradiction
  · obtain ⟨-, rfl⟩ := EStateM.Result.ok.inj h
    exact ⟨⟨hcalm, rfl⟩, rfl, rfl⟩

/-- A page is made for every request, for any number of cycles and any seed, and the workbench does
not crash on the way. Without a program the page tells the reason. If the program is too large to be
loaded, it shows the machine before that. Else it shows the machine after the run or where it
stopped, and has a line for each of the last cycles, of which only the very last can have failed.
The frames and beeps are those of the cycles that present a screen, or sound the tone. -/
theorem page_tells_the_run (request : Request) (n : Int) (seed : Option Int) :
    ∃ p, strictPage request (.whole n) (seed.map .whole) = .ok p ∧
      page request (.whole n) (seed.map .whole) = .ok p ∧
      match request.program with
      | .error reason => p.Refuses reason
      | .ok program =>
        match loadProgram program (plainMachine (seed.getD 0)) with
        | .error f m => p.Shows m (some f) []
        | .ok _ m =>
          p.Shows (after (run n.toNat) m) (stopped? (run n.toNat) m)
            ((cycleLines n.toNat m).rtake 200) ∧
          (∀ k, k + 1 < attempts n.toNat m → ∃ q, cycle (after (run k) m) = .ok () q) ∧
          (after (run n.toNat) m).display.count = tally presents n.toNat m ∧
          (after (run n.toNat) m).sounder.count = tally sounds n.toNat m := by
  rw [strictPage_eq, page_eq]
  cases request.program with
  | error reason => exact ⟨_, rfl, rfl, refuses_failed reason⟩
  | ok program =>
    obtain ⟨p, hp, hshows⟩ := exists_shows program n (seed.getD 0)
    refine ⟨p, congrArg (Except.mapError Sum.inr) hp, hp, ?_⟩
    dsimp only
    cases hl : loadProgram program (plainMachine (seed.getD 0)) with
    | error f m =>
      rw [hl] at hshows
      exact hshows
    | ok _ m =>
      rw [hl] at hshows
      obtain ⟨hcounting, hframes, hbeeps⟩ := counting_of_loadProgram hl
      refine ⟨hshows, fun k hk => exists_cycle_of_succ_lt_attempts hk, ?_, ?_⟩
      · rw [count_display_run hcounting, hframes, Nat.zero_add]
      · rw [count_sounder_run hcounting, hbeeps, Nat.zero_add]

/-- The page of a program that sounds the tone, draws one pixel and then stops, and that of a text
that is refused. -/
theorem page_of_program_that_stops :
    (∃ p, page (.file [0x63, 0x01, 0xF3, 0x18, 0xA2, 0x01, 0xD3, 0x31, 0x00, 0x00]) (.whole 9)
        none = .ok p ∧
      p.summary = "EXECUTION SUMMARY\n========================================\nCycles: 4\n" ++
        "PC: 0x20A\nLit pixels: 1\nFrames drawn: 1\nBeeps: 1\n\n" ++
        "Stopped: Unknown opcode 0x0000 at 0x208" ∧
      p.trace = "EXECUTION TRACE (last 5 cycles)\n" ++
        "============================================================\n" ++
        "[     0] 0x200: 6301  LD V3, 0x01   (V3=01)\n[     1] 0x202: F318  LD ST, V3\n" ++
        "[     2] 0x204: A201  LD I, 0x201\n[     3] 0x206: D331  DRW V3, V3, 1\n" ++
        "[     4] 0x208: 0000  DW 0x0000   ERROR: Unknown opcode 0x0000 at 0x208" ∧
      p.registers = "FINAL REGISTERS\n==============================\n" ++
        "  V0: 0x00 (  0)\n  V1: 0x00 (  0)\n  V2: 0x00 (  0)\n  V3: 0x01 (  1) *\n" ++
        "  V4: 0x00 (  0)\n  V5: 0x00 (  0)\n  V6: 0x00 (  0)\n  V7: 0x00 (  0)\n" ++
        "  V8: 0x00 (  0)\n  V9: 0x00 (  0)\n  VA: 0x00 (  0)\n  VB: 0x00 (  0)\n" ++
        "  VC: 0x00 (  0)\n  VD: 0x00 (  0)\n  VE: 0x00 (  0)\n  VF: 0x00 (  0)\n\n" ++
        "  I:  0x201\n  SP: 0\n  DT: 0  ST: 0" ∧
      (p.image[15]?.bind (·[71]?)) = some [255, 255, 255] ∧
      (p.image[7]?.bind (·[71]?)) = some [0, 0, 0]) ∧
    ∃ p, page (.source "LD V0") (.whole 9) none = .ok p ∧
      p.summary = "Error: line 1: LD takes 2 operand(s), got 1" := by
  constructor
  · have hpage := page_tells_the_run
      (.file [0x63, 0x01, 0xF3, 0x18, 0xA2, 0x01, 0xD3, 0x31, 0x00, 0x00]) 9 none
    dsimp only [Request.program] at hpage
    rw [loadProgram_eq, if_neg (by decide)] at hpage
    obtain ⟨p, -, hp, hshows, -⟩ := hpage
    refine ⟨p, hp, hshows.summary.trans ?_, hshows.trace.trans ?_, hshows.registers.trans ?_,
      ?_, ?_⟩
    · decide +kernel
    · decide +kernel
    · decide +kernel
    · rw [hshows.image]
      decide +kernel
    · rw [hshows.image]
      decide +kernel
  · have hprogram : (Request.source "LD V0").program =
        .error "line 1: LD takes 2 operand(s), got 1" := by
      decide +kernel
    have hpage := page_tells_the_run (.source "LD V0") 9 none
    rw [hprogram] at hpage
    obtain ⟨p, -, hp, hrefuses⟩ := hpage
    exact ⟨p, hp, hrefuses.summary⟩

end Workbench

end Chip8
