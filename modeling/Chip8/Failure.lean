import Chip8.Assembly.Problem
import Chip8.Fault
import Chip8.Pacer
import Chip8.Sound.SquareWave
import Chip8.Window.System

/-!
# Failures

Everything that can end a run from outside the machine: a fault of the machine, and whatever goes
wrong before it gets going or between its cycles.
-/

namespace Chip8

/-- A reason why a run ends early. -/
inductive Failure where
  | fault (f : Fault)
  /-- The source text of the program is refused. -/
  | source (r : Assembly.Refusal)
  | pacer (r : Pacer.Refusal)
  | quantity (p : Quantity.Problem)
  | wave (p : SquareWave.Problem)
  /-- There is no window of the kind asked for. -/
  | window (r : Window.Refusal)
  /-- A number is needed, and there is none. -/
  | noNumber
  /-- The keys have no input frame to close. -/
  | noInputFrames
  /-- A source file is not text. -/
  | notText
  /-- A program file is a folder. -/
  | isFolder
  /-- The path of a program file is too long to be looked at. -/
  | pathTooLong
  deriving DecidableEq, Repr

/-- The words for a failure that is reported as a message. Other failures have none. -/
def Failure.report? : Failure → Option String
  | fault f => some f.message
  | source r => some r.message
  | _ => none

end Chip8
