import Chip8.Assembly.Program
import Chip8.Failure
import Chip8.Machine.Cycle
import Chip8.Machine.Report
import Chip8.Random.Twister

/-!
# The workbench

The workbench runs a program for a number of cycles without a window, and shows what became of it:
the picture, a summary, the last cycles and the registers. A program that stops early, or does
not even assemble, still gives a page, which tells the reason.
-/

namespace Chip8.Workbench

open Text

/-- The number of cycles that a page lists. -/
def traceLimit : Nat := 200

/-! ## Pictures -/

/-- A picture row by row. Each of its pixels is a list of brightnesses, one for each colour. -/
abbrev Picture := List (List (List UInt8))

/-- The width and height of a lit pixel in a picture. -/
def pictureScale : Nat := 8

/-- The members of a list, each of them `pictureScale` times. -/
def stretched {α : Type} (l : List α) : List α := l.flatMap (List.replicate pictureScale)

/-- The picture of a screen, the same in red, green and blue. -/
def picture (s : Screen) : Picture :=
  let pixels : List (List UInt8) := s.grid.map fun row => row.map fun lit => lit.toNat.toUInt8 * 255
  ((stretched pixels).map stretched).map fun row => row.map fun b => List.replicate 3 b

/-- The height, the width and the number of colours of a picture. -/
def pictureShape : List Nat := [screenHeight * pictureScale, screenWidth * pictureScale, 3]

/-- The sum of all brightnesses in a picture of a screen. -/
def totalBrightness (s : Screen) : Nat :=
  let total := fun l : List Nat => l.foldr (· + ·) 0
  total ((picture s).map fun row => total (row.map fun colours => total (colours.map (·.toNat))))

/-! ## Pages -/

/-- What the workbench shows. -/
structure Page where
  image : Picture
  summary : String
  trace : String
  registers : String
  deriving DecidableEq

/-- The screen in the picture of a page. What a pixel is like can be seen in its corner. -/
def Page.screen (p : Page) : Screen :=
  .ofPixels fun c r =>
    (p.image[r * pictureScale]?.bind (·[c * pictureScale]?)).any fun colours => colours.any (· ≠ 0)

/-- A page without a run. -/
def Page.failed (reason : String) : Page := ⟨picture .blank, "Error: " ++ reason, "", ""⟩

/-- The machine of the workbench. -/
abbrev BenchMachine := Machine NoKeys BeepCounter Recorder Twister

/-- A line of `n` double strokes. -/
def doubleRule (n : Nat) : String := String.ofList (List.replicate n '=')

/-- Lines as one text. -/
def unlines (lines : List String) : String := "\n".intercalate lines

/-- The numbers of a run, and why it stopped if it did. -/
def summaryText (m : BenchMachine) (stopped : Option Fault) : String :=
  unlines <|
    ["EXECUTION SUMMARY", doubleRule 40, s!"Cycles: {m.cpu.cycles}", "PC: 0x" ++ hex 3 m.cpu.pc,
      s!"Lit pixels: {m.screen.lit.length}", s!"Frames drawn: {m.display.count}",
      s!"Beeps: {m.sounder.count}"]
    ++ match stopped with
      | some f => ["\nStopped: " ++ f.message]
      | none => []

/-- One recorded cycle on one line. -/
def traceLine (e : Trace.Entry) : String :=
  let changes := (e.before.changedRegisters e.after).map fun (name, _, new) =>
    name ++ "=" ++ hex 2 new.toNat
  "[" ++ rightAligned 6 e.cycle ++ "] " ++ e.listing
    ++ (if changes.isEmpty then "" else "   (" ++ ", ".intercalate changes ++ ")")
    ++ match e.failure with
      | some reason => "   ERROR: " ++ reason
      | none => ""

/-- The recorded cycles. -/
def traceText (t : Trace) : String :=
  unlines <|
    [s!"EXECUTION TRACE (last {t.entries.size} cycles)", doubleRule 60]
    ++ t.entries.toList.map traceLine

/-- The registers and timers. -/
def registersText (p : Processor) : String :=
  let line (name : String) (b : UInt8) : String :=
    "  " ++ name ++ ": 0x" ++ hex 2 b.toNat ++ " (" ++ rightAligned 3 b.toNat ++ ")"
      ++ if b = 0 then "" else " *"
  unlines <|
    ["FINAL REGISTERS", doubleRule 30]
    ++ p.namedRegisters.map (fun (name, b) => line name b)
    ++ ["", "  I:  0x" ++ hex 3 p.index, s!"  SP: {p.sp}", s!"  DT: {p.delay}  ST: {p.sound}"]

/-- The page of a run. -/
def pageOf (m : BenchMachine) (stopped : Option Fault) : Page where
  image := picture (m.display.last.getD .blank)
  summary := summaryText m stopped
  trace := traceText m.trace
  registers := registersText m.cpu

/-- A machine of the workbench before anything was run. -/
def benchMachine (seed : Int) : BenchMachine :=
  Machine.powerOn {} .fresh .fresh (Twister.ofSeed seed) true (.withLimit traceLimit)

/-- The page of a program that is run for a number of cycles. -/
def runProgram (program : List UInt8) (cycles : Quantity) (seed : Int) :
    Except Failure Page :=
  match Machine.loadProgram program (benchMachine seed) with
  | .error f m => .ok (pageOf m (some f))
  | .ok _ m => do
    let n ← cycles.truncate.mapError .quantity
    match Machine.run n.toNat m with
    | .error f m => return pageOf m (some f)
    | .ok _ m => return pageOf m none

/-- What is run: a file that was handed in, or else a source text. -/
inductive Request where
  | file (bytes : List UInt8)
  | source (text : String)
  deriving DecidableEq, Repr

/-- The page of a request. There is none if the number of cycles or the seed is no number. Without
a seed zero is taken. -/
def page (request : Request) (cycles : Quantity) (seed : Option Quantity) : Except Failure Page :=
  let run (program : List UInt8) : Except Failure Page := do
    let seed ← ((seed.getD (.whole 0)).truncate).mapError .quantity
    runProgram program cycles seed
  match request with
  | .file bytes => run bytes
  | .source text =>
    if (strip text.toList).isEmpty then .ok (.failed "No program provided")
    else
      match assemble text with
      | .error r => .ok (.failed r.message)
      | .ok program => run program

end Chip8.Workbench
