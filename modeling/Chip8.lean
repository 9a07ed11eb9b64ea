import Chip8.Assembly.Encoding
import Chip8.Assembly.Problem
import Chip8.Assembly.Program
import Chip8.Assembly.Source
import Chip8.CommandLine.Folder
import Chip8.CommandLine.Options
import Chip8.CommandLine.Run
import Chip8.Device
import Chip8.Failure
import Chip8.Fault
import Chip8.HandlerTable
import Chip8.Instruction
import Chip8.Keypad
import Chip8.Layout
import Chip8.Machine.Basic
import Chip8.Machine.Cycle
import Chip8.Machine.Frame
import Chip8.Machine.Handlers
import Chip8.Machine.Report
import Chip8.Machine.Trace
import Chip8.Main
import Chip8.Mnemonic
import Chip8.Number.Binary64
import Chip8.Number.Quantity
import Chip8.Pacer
import Chip8.Processor.Basic
import Chip8.Processor.Effect
import Chip8.Processor.Snapshot
import Chip8.Proofs.Assembly.Append
import Chip8.Proofs.Assembly.Canonical
import Chip8.Proofs.Assembly.Counterpart
import Chip8.Proofs.Assembly.Encoding
import Chip8.Proofs.Assembly.Gap
import Chip8.Proofs.Assembly.Label
import Chip8.Proofs.Assembly.Layout
import Chip8.Proofs.Assembly.LetterCase
import Chip8.Proofs.Assembly.Line
import Chip8.Proofs.Assembly.LineText
import Chip8.Proofs.Assembly.Listing
import Chip8.Proofs.Assembly.Operand
import Chip8.Proofs.Assembly.Passes
import Chip8.Proofs.Assembly.Reassembly
import Chip8.Proofs.Assembly.Spelling
import Chip8.Proofs.Assembly.Strict
import Chip8.Proofs.Assembly.Syntax
import Chip8.Proofs.Assembly.Written
import Chip8.Proofs.Except
import Chip8.Proofs.Frame.Play
import Chip8.Proofs.Frame.Release
import Chip8.Proofs.Frame.Wait
import Chip8.Proofs.HandlerTable
import Chip8.Proofs.Machine.Bare
import Chip8.Proofs.Machine.CallStack
import Chip8.Proofs.Machine.Completion
import Chip8.Proofs.Machine.Course
import Chip8.Proofs.Machine.Cycle
import Chip8.Proofs.Machine.Dispatch
import Chip8.Proofs.Machine.Execution
import Chip8.Proofs.Machine.Failure
import Chip8.Proofs.Machine.Flag
import Chip8.Proofs.Machine.History
import Chip8.Proofs.Machine.Keys
import Chip8.Proofs.Machine.Observer
import Chip8.Proofs.Machine.Outcome
import Chip8.Proofs.Machine.Parity
import Chip8.Proofs.Machine.Picture
import Chip8.Proofs.Machine.Reachable
import Chip8.Proofs.Machine.Record
import Chip8.Proofs.Machine.Restart
import Chip8.Proofs.Machine.Schedule
import Chip8.Proofs.Machine.Stage
import Chip8.Proofs.Machine.Tally
import Chip8.Proofs.Machine.Timer
import Chip8.Proofs.Machine.Untraced
import Chip8.Proofs.Number.Sign
import Chip8.Proofs.Pacer
import Chip8.Proofs.Processor.Access
import Chip8.Proofs.Processor.Effect
import Chip8.Proofs.Processor.Intact
import Chip8.Proofs.Processor.ReadWrite
import Chip8.Proofs.Screen
import Chip8.Proofs.Sound.ShutOff
import Chip8.Proofs.Text.Cut
import Chip8.Proofs.Text.Numeral
import Chip8.Proofs.Text.Padded
import Chip8.Proofs.Text.Radix
import Chip8.Proofs.Video
import Chip8.Proofs.Window.Canvas
import Chip8.Proofs.Window.Unattended
import Chip8.Proofs.Word.Pattern
import Chip8.Proofs.Workbench.Page
import Chip8.Proofs.Workbench.Picture
import Chip8.Proofs.Workbench.Report
import Chip8.Random.Twister
import Chip8.Screen
import Chip8.Sound.Speaker
import Chip8.Sound.SquareWave
import Chip8.Text.Blank
import Chip8.Text.DecimalDigit
import Chip8.Text.Hex
import Chip8.Text.Numeral
import Chip8.Text.Uppercase
import Chip8.Video
import Chip8.Window.Canvas
import Chip8.Window.Event
import Chip8.Window.Raster
import Chip8.Window.Session
import Chip8.Window.System
import Chip8.Word
import Chip8.Workbench.Examples
import Chip8.Workbench.Page
