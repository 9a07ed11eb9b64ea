import Chip8.Proofs.Machine.History
import Chip8.Proofs.Machine.Untraced
import Chip8.Proofs.Text.Padded
import Chip8.Proofs.Workbench.Picture

/-!
# The texts on a page

The texts are put together from what was recorded: a snapshot has its registers in a list with their
names, and a record has the snapshots before and after its cycle. Here the same texts are described
by the machine alone, line by line. A register has its number, and what a cycle did is seen by
running it.

All numbers in a text belong to an intact machine. So none of them has a sign, and each of them can
be described by its digits.

## Main definitions

* `registerLine`, `cycleLine` — the lines of the texts
* `Page.Shows` — what a page says of a machine
* `Page.Refuses` — what it says if there is none

## Main results

* `traceLine_eq` — a record that tells the truth gives the line of its cycle
* `shows_pageOf` — the page of a machine
-/

namespace Chip8

namespace Workbench

open Machine Text

/-! ### Registers -/

/-- What a page says of a register. One that is not zero is marked. -/
def registerLine (p : Processor) (r : Nat) : String :=
  "  V" ++ capitalHex 1 r ++ ": 0x" ++ capitalHex 2 (p.reg r).toNat ++ " (" ++
    column 3 (p.reg r).toNat ++ ")" ++ if p.reg r = 0 then "" else " *"

/-- What a page says of the registers that a cycle changes. -/
def changes (p q : Processor) : List String :=
  (List.range registerCount).filterMap fun r =>
    if p.reg r = q.reg r then none
    else some ("V" ++ capitalHex 1 r ++ "=" ++ capitalHex 2 (q.reg r).toNat)

/-- The registers are named by their numbers in base sixteen. -/
theorem namedRegisters_eq {p : Processor} (h : p.Intact) :
    p.namedRegisters =
      (List.range registerCount).map fun r => ("V" ++ capitalHex 1 r, p.reg r) := by
  have hnames : Processor.registerNames =
      (List.range registerCount).map fun r => "V" ++ capitalHex 1 r := by decide
  have hvalues : p.registers.toList = (List.range registerCount).map p.reg := by
    refine List.ext_getElem (by simp [h.registers]) fun r hr hr' => ?_
    have hlt : r < p.registers.size := by simpa using hr
    simp [Processor.reg, hlt]
  rw [Processor.namedRegisters, hnames, hvalues, List.zip_map']

theorem changedRegisters_eq {p q : Processor} (hp : p.Intact) (hq : q.Intact) :
    (p.snapshot.changedRegisters q.snapshot).map (fun (name, _, new) =>
      name ++ "=" ++ hex 2 new.toNat) = changes p q := by
  simp only [Snapshot.changedRegisters, Processor.snapshot, namedRegisters_eq hp,
    namedRegisters_eq hq, List.zip_map', List.filterMap_map, List.map_filterMap, changes,
    hex_natCast]
  refine List.filterMap_congr fun r _ => ?_
  dsimp only [Function.comp_apply]
  split <;> rfl

theorem changes_self (p : Processor) : changes p p = [] := by
  simp [changes]

/-! ### Cycles -/

/-- What a page says of the word that a cycle begins with, if it is in memory. -/
def wordText (p : Processor) : String :=
  "0x" ++ capitalHex 3 p.pc.toNat ++
    if p.pc ≤ 4094 then ": " ++ capitalHex 4 p.word.value.toNat ++ "  " ++ p.word.mnemonic
    else ": ----"

/-- What a page says of the cycle with number `k`, which the machine begins. -/
def cycleLine (k : Nat) (m : BenchMachine) : String :=
  "[" ++ column 6 k ++ "] " ++ wordText m.cpu ++
    match cycle m with
    | .ok _ m' =>
      if changes m.cpu m'.cpu = [] then ""
      else "   (" ++ ", ".intercalate (changes m.cpu m'.cpu) ++ ")"
    | .error f _ => "   ERROR: " ++ f.message

variable {m : BenchMachine} {e : Trace.Entry} {k : Nat}

theorem listing_eq (h : m.cpu.Intact) (ht : m.Tells e) : e.listing = wordText m.cpu := by
  have hfetch := Processor.fetch_eq h.memory h.pc.1
  by_cases hp : m.cpu.pc ≤ 4094
  · rw [if_neg (by omega)] at hfetch
    have hword : 0 ≤ m.cpu.word.value := by
      dsimp only [Processor.word]
      omega
    rw [Trace.Entry.listing, (ht.fetched _ hfetch).1, ht.pc, wordText, if_pos hp]
    dsimp only
    rw [hex_eq 3 h.pc.1, hex_eq 4 hword]
    simp only [String.append_assoc]
  · rw [if_pos (by omega)] at hfetch
    rw [Trace.Entry.listing, ht.unfetched _ hfetch, ht.pc, wordText, if_neg hp]
    dsimp only
    rw [hex_eq 3 h.pc.1]

/-- A record that tells the truth gives the line of its cycle. -/
theorem traceLine_eq (h : m.cpu.Intact) (ht : m.Tells e) (hk : e.cycle = k) :
    traceLine e = cycleLine k m := by
  rw [traceLine, hk, rightAligned_natCast, listing_eq h ht, cycleLine]
  cases hc : cycle m with
  | ok _ m' =>
    obtain ⟨hafter, hfailure⟩ := ht.returned m' hc
    have hi : m'.cpu.Intact := by
      have hi := cycle_intact h
      rwa [after, hc] at hi
    rw [ht.before, hafter, changedRegisters_eq h hi, hfailure]
    simp only [List.isEmpty_iff, String.append_empty]
  | error f m' =>
    obtain ⟨hafter, hfailure⟩ := ht.failed f m' hc
    rw [hafter, ht.before, changedRegisters_eq h h, changes_self, hfailure]
    simp only [List.isEmpty_nil, if_true, String.append_empty]

/-! ### Pages -/

/-- What a page says of a machine: its screen as a picture and its numbers, why it stopped if it
did, and some lines about its cycles. -/
structure Page.Shows (p : Page) (m : BenchMachine) (stopped : Option Fault)
    (lines : List String) : Prop where
  image : p.image =
    (List.range (screenHeight * 8)).map fun y => (List.range (screenWidth * 8)).map fun x =>
      List.replicate 3 (if m.screen.pixel (x / 8) (y / 8) then 255 else 0)
  shape : HasShape pictureShape p.image
  /-- The screen can be told from the picture, and the number of lit pixels from its brightness. -/
  screen : p.screen = m.screen ∧ totalBrightness p.screen = 3 * 255 * (8 * 8) * m.screen.litCount
  summary : p.summary = "\n".intercalate (
    ["EXECUTION SUMMARY", "========================================",
      "Cycles: " ++ toString m.cpu.cycles, "PC: 0x" ++ capitalHex 3 m.cpu.pc.toNat,
      "Lit pixels: " ++ toString m.screen.litCount, "Frames drawn: " ++ toString m.display.count,
      "Beeps: " ++ toString m.sounder.count] ++
    stopped.toList.map fun f => "\nStopped: " ++ f.message)
  trace : p.trace = "\n".intercalate (
    ["EXECUTION TRACE (last " ++ toString lines.length ++ " cycles)",
      "============================================================"] ++ lines)
  registers : p.registers = "\n".intercalate (
    ["FINAL REGISTERS", "=============================="] ++
    (List.range registerCount).map (registerLine m.cpu) ++
    ["", "  I:  0x" ++ capitalHex 3 m.cpu.index.toNat, "  SP: " ++ toString m.cpu.sp,
      "  DT: " ++ toString m.cpu.delay ++ "  ST: " ++ toString m.cpu.sound])

/-- What a page says if there is no program: the picture is dark, and only the reason is told. -/
structure Page.Refuses (p : Page) (reason : String) : Prop where
  image : p.image = List.replicate (screenHeight * 8)
    (List.replicate (screenWidth * 8) (List.replicate 3 0))
  summary : p.summary = "Error: " ++ reason
  trace : p.trace = ""
  registers : p.registers = ""

theorem refuses_failed (reason : String) : (Page.failed reason).Refuses reason where
  image := by
    simp only [Page.failed, picture_eq, Screen.pixel_blank, Bool.false_eq_true, if_false,
      List.map_const', List.length_range]
    rfl
  summary := rfl
  trace := rfl
  registers := rfl

theorem registersText_eq {p : Processor} (h : p.Intact) :
    registersText p = "\n".intercalate (
      ["FINAL REGISTERS", "=============================="] ++
      (List.range registerCount).map (registerLine p) ++
      ["", "  I:  0x" ++ capitalHex 3 p.index.toNat, "  SP: " ++ toString p.sp,
        "  DT: " ++ toString p.delay ++ "  ST: " ++ toString p.sound]) := by
  have hrule : doubleRule 30 = "==============================" := by decide
  have hname : ∀ r, "  " ++ ("V" ++ capitalHex 1 r) = "  V" ++ capitalHex 1 r := fun r =>
    String.append_assoc.symm
  simp only [registersText, unlines, hrule, namedRegisters_eq h, List.map_map, Function.comp_def,
    hname, hex_natCast, rightAligned_natCast, hex_eq 3 h.index.1]
  rfl

theorem summaryText_eq (h : m.cpu.Intact) (stopped : Option Fault) :
    summaryText m stopped = "\n".intercalate (
      ["EXECUTION SUMMARY", "========================================",
        "Cycles: " ++ toString m.cpu.cycles, "PC: 0x" ++ capitalHex 3 m.cpu.pc.toNat,
        "Lit pixels: " ++ toString m.screen.litCount, "Frames drawn: " ++ toString m.display.count,
        "Beeps: " ++ toString m.sounder.count] ++
      stopped.toList.map fun f => "\nStopped: " ++ f.message) := by
  have hrule : doubleRule 40 = "========================================" := by decide
  cases stopped with
  | none =>
    simp only [summaryText, unlines, hrule, hex_eq 3 h.pc.1, m.screen.length_lit]
    rfl
  | some f =>
    simp only [summaryText, unlines, hrule, hex_eq 3 h.pc.1, m.screen.length_lit]
    rfl

theorem traceText_eq {t : Trace} {lines : List String}
    (h : t.entries.toList.map traceLine = lines) :
    traceText t = "\n".intercalate (
      ["EXECUTION TRACE (last " ++ toString lines.length ++ " cycles)",
        "============================================================"] ++ lines) := by
  have hrule : doubleRule 60 = "============================================================" := by
    decide
  have hsize : t.entries.size = lines.length := by
    rw [← h, List.length_map, Array.length_toList]
  simp only [traceText, unlines, hrule, h, hsize]
  rfl

/-- The page of a machine that shows its screen, with records that give the lines. -/
theorem shows_pageOf {lines : List String} (h : m.cpu.Intact)
    (hscreen : m.display.last.getD .blank = m.screen)
    (hlines : m.trace.entries.toList.map traceLine = lines) (stopped : Option Fault) :
    (pageOf m stopped).Shows m.untraced stopped lines := by
  have himage : (pageOf m stopped).image = picture m.screen := congrArg picture hscreen
  have hpage : (pageOf m stopped).screen = m.screen := screen_eq_of_image himage
  have huntraced : m.untraced.screen = m.screen := rfl
  refine ⟨?_, ?_, ⟨hpage, ?_⟩, ?_, ?_, ?_⟩
  · rw [himage, huntraced]
    exact picture_eq m.screen
  · rw [himage]
    exact hasShape_picture m.screen
  · rw [hpage, huntraced]
    exact totalBrightness_eq m.screen
  · rw [huntraced]
    dsimp only [pageOf, untraced]
    exact summaryText_eq h stopped
  · dsimp only [pageOf]
    exact traceText_eq hlines
  · dsimp only [pageOf, untraced]
    exact registersText_eq h

end Workbench

end Chip8
