import Chip8.Assembly.Program
import Chip8.CommandLine.Folder
import Chip8.CommandLine.Options
import Chip8.Machine.Report
import Chip8.Window.Raster
import Chip8.Window.Session

/-!
# The command

What the command does once its options are known: it lists the program, or runs it without a
window, or runs it in one.

A failure that has words for it ends the command with a message. Other failures end it without.
-/

namespace Chip8.CommandLine

/-- What the command leaves behind. -/
structure Outcome where
  stdout : String
  /-- The exit status, or the failure that ended the command. -/
  status : Except Failure Nat
  /-- The window session, if there was one. -/
  window : Option Window.Result

/-- Lines of text, each one ended. -/
def printed (lines : List String) : String :=
  String.join (lines.map (· ++ "\n"))

/-! ## Reading the program -/

/-- Text with every kind of line end as one line feed: a line feed right after a carriage return
is left out, and every carriage return becomes a line feed. -/
def withLineFeeds (cs : List Char) : List Char :=
  ((none :: cs.map some).zip cs).filterMap fun (before, c) =>
    if c = '\n' && before == some '\r' then none
    else if c = '\r' then some '\n'
    else some c

example : withLineFeeds "a\r\nb\r\rc\n".toList = "a\nb\n\nc\n".toList := by decide

/-- The text in a file. -/
def textOf (bytes : List UInt8) : Except Failure String :=
  match String.fromUTF8? ⟨bytes.toArray⟩ with
  | some text => .ok (String.ofList (withLineFeeds text.toList))
  | none => .error .notText

/-- The program in a file. -/
def programOf (assembly : Bool) : Entry → Except Failure (List UInt8)
  | .beyondReach => .error .pathTooLong
  | .folder => .error .isFolder
  | .file bytes =>
    if assembly then do (assemble (← textOf bytes)).mapError .source
    else .ok bytes

/-! ## Running it -/

/-- A machine without a window. -/
abbrev HeadlessMachine := Machine NoKeys BeepCounter Recorder Twister

/-- A machine without a window before anything was run. -/
def headlessMachine (seed : Option Int) (tracing : Bool) (limit : Nat) : HeadlessMachine :=
  Machine.powerOn {} .fresh .fresh (Twister.ofSeed (seed.getD 0)) tracing (.withLimit limit)

/-- The registers other than zero. -/
def quietLines (m : HeadlessMachine) : List String :=
  (m.cpu.namedRegisters.filter (·.2 ≠ 0)).map fun (name, b) => s!"{name}={b.toNat}"

/-- The screen and the state at the end of a run. -/
def reportLines (m : HeadlessMachine) : List String :=
  let registers := m.cpu.namedRegisters.map fun (name, b) => s!"'{name}': {b.toNat}"
  [(m.display.last.map Screen.text).getD "", "", s!"Cycles: {m.cpu.cycles}",
    "PC: 0x" ++ Text.hex 3 m.cpu.pc ++ "  I: 0x" ++ Text.hex 3 m.cpu.index ++ s!"  SP: {m.cpu.sp}",
    "Registers: \x7b" ++ ", ".intercalate registers ++ "\x7d",
    s!"Frames drawn: {m.display.count}  Beeps: {m.sounder.count}"]

/-- Runs a number of cycles, if it is a number. -/
def runCycles (cycles : Option Int) : EStateM Failure HeadlessMachine Unit := fun m =>
  match cycles with
  | none => .error .noNumber m
  | some n =>
    match Machine.run n.toNat m with
    | .ok _ m => .ok () m
    | .error f m => .error (.fault f) m

/-- Runs a program without a window. Gives what is printed, and the failure if there was one. -/
def runHeadless (program : List UInt8) (o : Options) : String × Option Failure :=
  if o.seed = some none then ("", some .noNumber)
  else
    match Machine.loadProgram program (headlessMachine o.seed.join o.trace Trace.defaultLimit) with
    | .error f _ => ("", some (.fault f))
    | .ok _ m =>
      let trace (m : HeadlessMachine) := if o.trace then m.traceText else ""
      match runCycles o.cycles m with
      | .error e m => (trace m, some e)
      | .ok _ m => (trace m ++ printed (if o.quiet then quietLines m else reportLines m), none)

/-- The settings of the window that the options ask for. -/
def windowSettings (o : Options) : Window.Settings :=
  { Window.Settings.standard with
    scale := o.scale.map .whole, speed := o.speed.map .whole, seed := o.seed }

/-- The outcome of a failure after something was printed. -/
def Outcome.failed (stdout : String) (e : Failure) (window : Option Window.Result) : Outcome :=
  match e.report? with
  | some words => ⟨stdout ++ printed ["Execution error: " ++ words], .ok 1, window⟩
  | none => ⟨stdout, .error e, window⟩

/-- The listing of a program. -/
def listing (program : List UInt8) : String :=
  printed ((Listing.lines programStart program).map (·.render))

/-- Does what the options ask for with what lies at the path, if anything does. The script says
what happens if a window is opened. -/
def run (o : Options) (entry : Option Entry) (script : Window.Script) : Outcome :=
  match entry with
  | none => ⟨printed ["Error: ROM file not found: " ++ o.path], .ok 1, none⟩
  | some entry =>
    match programOf o.assembly entry with
    | .error e => .failed "" e none
    | .ok program =>
      if o.disassemble then ⟨listing program, .ok 0, none⟩
      else if o.headless then
        match runHeadless program o with
        | (stdout, some e) => .failed stdout e none
        | (stdout, none) => ⟨stdout, .ok 0, none⟩
      else
        let result := Window.run (windowSettings o) program script
        match result.outcome with
        | .error e => .failed "" e (some result)
        | .ok _ => ⟨"", .ok 0, some result⟩

/-! ## The whole command -/

/-- The command in a folder with the given files. -/
def command (args : List String) (files : List (String × List UInt8)) (script : Window.Script) :
    Outcome :=
  match Options.ofArguments args with
  | .error .misuse => ⟨"", .ok 2, none⟩
  | .error .help => ⟨"", .ok 0, none⟩
  | .ok o => run o (lookup files o.path) script

end Chip8.CommandLine
