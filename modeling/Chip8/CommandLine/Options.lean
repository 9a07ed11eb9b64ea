import Chip8.Text.Numeral

/-!
# Command line options

A command line names a program file and may hold switches, before the name and after it. A switch
is a flag, or takes a value. The usual conventions hold:

* a long switch may be shortened as long as it stays the only one with that beginning, and its
  value may follow in the next argument or after `=`
* short flags may be put together behind one dash, and a short switch with a value may end such a
  bundle, its value attached or in the next argument
* `--` ends the switches; as the value of a switch, attached to it, it stands for no number at all
* a negative number, a single dash and anything with a blank in it are no switches

`Options.ofArguments` reads a command line, and tells misuse from a request for help.
-/

namespace Chip8.CommandLine

open Text

/-- What a command line asks for. -/
structure Options where
  /-- The program file. -/
  path : String
  /-- The file is assembly text. -/
  assembly : Bool
  /-- Run without a window. -/
  headless : Bool
  /-- List the program, and do not run it. -/
  disassemble : Bool
  /-- Record the cycles, and print the record. -/
  trace : Bool
  /-- Print as little as possible. -/
  quiet : Bool
  /-- The number of cycles without a window, if it is a number. -/
  cycles : Option Int
  /-- The speed in a window, in cycles a second, if it is a number. -/
  speed : Option Int
  /-- The size of a pixel in a window, if it is a number. -/
  scale : Option Int
  /-- The seed of the random bytes, if there is to be one, and if that is a number. -/
  seed : Option (Option Int)
  deriving DecidableEq, Repr

/-- The options before any switch is seen. -/
def Options.initial : Options where
  path := ""
  assembly := false
  headless := false
  disassemble := false
  trace := false
  quiet := false
  cycles := some 1000
  speed := some 500
  scale := some 10
  seed := none

/-! ## Switches -/

/-- A switch that is there or not. -/
inductive Flag where
  | assembly
  | headless
  | disassemble
  | trace
  | quiet
  /-- More messages in the log, which is not part of the output. -/
  | verbose
  | help
  deriving DecidableEq, Repr

/-- A switch that takes a number. -/
inductive Setting where
  | cycles
  | speed
  | scale
  | seed
  deriving DecidableEq, Repr

/-- A switch of either kind. -/
inductive Switch where
  | flag (f : Flag)
  | setting (s : Setting)
  deriving DecidableEq, Repr

/-- The names of the switches. -/
def switchNames : List (String × Switch) := [
  ("-h", .flag .help), ("--help", .flag .help),
  ("--asm", .flag .assembly),
  ("--headless", .flag .headless),
  ("--cycles", .setting .cycles), ("-n", .setting .cycles),
  ("--cycles-per-second", .setting .speed),
  ("--scale", .setting .scale),
  ("--seed", .setting .seed),
  ("--disassemble", .flag .disassemble), ("-d", .flag .disassemble),
  ("--trace", .flag .trace), ("-t", .flag .trace),
  ("--quiet", .flag .quiet), ("-q", .flag .quiet),
  ("--verbose", .flag .verbose), ("-v", .flag .verbose)]

/-- The switch of a given name. -/
def switch? (name : List Char) : Option Switch :=
  (switchNames.find? (·.1.toList == name)).map (·.2)

/-- The options with a flag set. -/
def Options.setFlag (o : Options) : Flag → Options
  | .assembly => { o with assembly := true }
  | .headless => { o with headless := true }
  | .disassemble => { o with disassemble := true }
  | .trace => { o with trace := true }
  | .quiet => { o with quiet := true }
  | .verbose | .help => o

/-- The options with a number set, or set to be none. -/
def Options.setNumber (o : Options) (n : Option Int) : Setting → Options
  | .cycles => { o with cycles := n }
  | .speed => { o with speed := n }
  | .scale => { o with scale := n }
  | .seed => { o with seed := some n }

/-! ## Arguments -/

/-- One argument of a command line. -/
inductive Argument where
  /-- No switch. -/
  | operand (text : List Char)
  /-- Two dashes, which end the switches. -/
  | separator
  /-- A switch without text of its own. -/
  | plain (s : Switch)
  /-- A long switch by its full name or a beginning of it, with text after `=`. -/
  | assigned (s : Switch) (text : List Char)
  /-- A short switch with text right after it, or after `=`. -/
  | attached (s : Switch) (text : List Char)
  deriving DecidableEq, Repr

/-- Whether a text is a negative number, with or without a fraction. A line end may follow it. -/
def isNegativeNumber (arg : List Char) : Bool :=
  let isDigit (c : Char) := (decimalValue? c).isSome
  match arg with
  | '-' :: cs =>
    let cs := if cs.getLast? = some '\n' then cs.dropLast else cs
    match cs.dropWhile isDigit with
    | [] => !cs.isEmpty
    | '.' :: ds => !ds.isEmpty && ds.all isDigit
    | _ => false
  | _ => false

/-- The part of a text before the first `=`, and what follows that if there is one. -/
def splitAssignment (arg : List Char) : List Char × Option (List Char) :=
  match arg.dropWhile (· ≠ '=') with
  | [] => (arg, none)
  | _ :: text => (arg.takeWhile (· ≠ '='), some text)

/-- Whether a name is that of a short switch: a dash and one character. -/
def isShort (name : List Char) : Bool := name.length == 2

/-- What a text that starts with a dash can mean as a shortened or bundled switch. -/
def candidates (arg : List Char) : List Argument :=
  match arg with
  | '-' :: '-' :: _ =>
    let (start, text) := splitAssignment arg
    (switchNames.filter fun (name, _) => start.isPrefixOf name.toList).map fun (_, s) =>
      match text with
      | some text => .assigned s text
      | none => .plain s
  | '-' :: c :: text =>
    match switch? ['-', c] with
    | some s => [.attached s text]
    | none => []
  | _ => []

/-- An argument before any separator, unless it is misused. -/
def Argument.ofChars? (arg : List Char) : Option Argument :=
  match arg with
  | '-' :: _ :: _ =>
    match switch? arg, splitAssignment arg with
    | some s, _ => some (.plain s)
    | none, (name, text) =>
      match switch? name, text with
      | some s, some text => some (if isShort name then .attached s text else .assigned s text)
      | _, _ =>
        match candidates arg with
        | [a] => some a
        | [] => if isNegativeNumber arg || arg.contains ' ' then some (.operand arg) else none
        | _ => none
  | _ => some (.operand arg)

/-- The arguments of a command line. Everything after a separator is no switch. -/
def Argument.ofStrings? : List String → Option (List Argument)
  | [] => some []
  | a :: as =>
    if a = "--" then some (.separator :: as.map fun b => .operand b.toList)
    else do return (← ofChars? a.toList) :: (← ofStrings? as)

/-! ## Reading -/

/-- Why a command line gives no options. -/
inductive Stop where
  | misuse
  /-- It asks for help. -/
  | help
  deriving DecidableEq, Repr

/-- Options while they are read. -/
structure Reading where
  options : Options
  /-- Whether the program file was named. -/
  named : Bool

/-- Sets a flag. -/
def Reading.setFlag (r : Reading) (f : Flag) : Except Stop Reading :=
  if f = .help then .error .help else .ok { r with options := r.options.setFlag f }

/-- Sets a number given as text. -/
def Reading.setNumber (r : Reading) (s : Setting) (text : List Char) : Except Stop Reading :=
  if text = ['-', '-'] then .ok { r with options := r.options.setNumber none s }
  else
    match decimal? text with
    | some n => .ok { r with options := r.options.setNumber (some n) s }
    | none => .error .misuse

/-- Names the program file. -/
def Reading.name (r : Reading) (text : List Char) : Except Stop Reading :=
  if r.named then .error .misuse
  else .ok { options := { r.options with path := String.ofList text }, named := true }

/-- Reads a bundle of short switches: a flag, and the text right after it, which goes on with
further switches. Gives the switch that still waits for its value, if there is one. -/
def Reading.bundle (r : Reading) (f : Flag) : List Char → Except Stop (Reading × Option Setting)
  | [] => .error .misuse
  | c :: text =>
    match switch? ['-', c] with
    | none => .error .misuse
    | some (.flag g) =>
      match text with
      | [] => do return (← (← r.setFlag f).setFlag g, none)
      | _ => do bundle (← r.setFlag f) g text
    | some (.setting s) =>
      match text with
      | [] => do return (← r.setFlag f, some s)
      | value => do return (← (← r.setFlag f).setNumber s value, none)

/-- Reads an argument that is a switch. Gives the switch that still waits for its value, if there
is one. -/
def Reading.switch (r : Reading) : Argument → Except Stop (Reading × Option Setting)
  | .plain (.flag f) => do return (← r.setFlag f, none)
  | .plain (.setting s) => .ok (r, some s)
  | .assigned (.setting s) text => do return (← r.setNumber s text, none)
  | .attached (.setting s) text => do return (← r.setNumber s text, none)
  | .attached (.flag f) text => r.bundle f text
  | .assigned (.flag _) _ | .operand _ | .separator => .error .misuse

/-- Reads arguments in turn. One separator may stand right before the program file or right after
it. -/
def Reading.arguments : List Argument → Reading → Except Stop Reading
  | [], r => .ok r
  | .operand text :: .separator :: rest, r => do arguments rest (← r.name text)
  | .operand text :: rest, r => do arguments rest (← r.name text)
  | .separator :: .operand text :: rest, r => do arguments rest (← r.name text)
  | .separator :: _, _ => .error .misuse
  | a :: rest, r =>
    match r.switch a, rest with
    | .error e, _ => .error e
    | .ok (r, none), rest => arguments rest r
    | .ok (r, some s), .operand text :: rest => do arguments rest (← r.setNumber s text)
    | .ok (_, some _), _ => .error .misuse

/-- The options of a command line. -/
def Options.ofArguments (args : List String) : Except Stop Options :=
  match Argument.ofStrings? args with
  | none => .error .misuse
  | some as => do
    let r ← Reading.arguments as ⟨.initial, false⟩
    if r.named then return r.options else .error .misuse

end Chip8.CommandLine
