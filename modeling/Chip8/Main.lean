import Chip8.CommandLine.Run

/-!
# The command line program

Reads the program file, runs the command and prints what it has to say. There is no window here:
a session in a window is over as soon as it was opened.
-/

open Chip8

/-- What lies at a path, if it can be read. -/
def readEntry (path : String) : IO (Option CommandLine.Entry) := do
  try
    return some (.file (← IO.FS.readBinFile path).toList)
  catch _ => return none

/-- The session of a user who quits at once. -/
def noSession : Window.Script := ⟨.real .zero, [], none, none⟩

/-- The exit status of a failure without words. -/
def failureStatus : UInt32 := 1

def main (args : List String) : IO UInt32 := do
  match CommandLine.Options.ofArguments args with
  | .error .misuse => return 2
  | .error .help => return 0
  | .ok o =>
    let outcome := CommandLine.run o (← readEntry o.path) noSession
    IO.print outcome.stdout
    match outcome.status with
    | .ok status => return status.toUInt32
    | .error _ => return failureStatus
