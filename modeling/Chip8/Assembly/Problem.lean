/-!
# What can be wrong with a source text

A source text is refused for one problem, the first that is met, together with the number of the
line it is on. Operands and labels are quoted as they were written, operations in capitals.
-/

namespace Chip8.Assembly

/-- What a number is meant to be. -/
inductive Unit where
  | byte
  | word
  | nibble
  deriving DecidableEq, Repr

/-- The name of a kind of number. -/
def Unit.name : Unit → String
  | byte => "byte"
  | word => "word"
  | nibble => "nibble"

/-- The largest number of a kind. -/
def Unit.limit : Unit → Nat
  | byte => 0xFF
  | word => 0xFFFF
  | nibble => 0xF

/-- How many operands an operation takes. -/
inductive Arity where
  | exactly (n : Nat)
  /-- One operand or two. -/
  | oneOrTwo
  deriving DecidableEq, Repr

/-- Whether a number of operands is right. -/
def Arity.admits : Arity → Nat → Bool
  | exactly n, k => k == n
  | oneOrTwo, k => k == 1 || k == 2

/-- The right number of operands in words. -/
def Arity.describe : Arity → String
  | exactly n => toString n
  | oneOrTwo => "1 or 2"

/-- A reason to refuse a source text. -/
inductive Problem where
  /-- Nothing stands before, after or between commas. The whole statement is quoted. -/
  | emptyOperand (statement : String)
  /-- A label is defined a second time. -/
  | duplicateLabel (name : String)
  | unknownOperation (name : String)
  | wrongCount (operation : String) (arity : Arity) (found : Nat)
  | notRegister (operand : String)
  /-- An indexed jump starts from another register than `V0`. -/
  | jumpRegister
  | notNumber (unit : Unit) (operand : String)
  | tooLarge (unit : Unit) (operand : String)
  /-- An address is neither a label nor a number. -/
  | unknownLabel (operand : String)
  | addressTooLarge (operand : String)
  /-- The bytes do not fit into memory. -/
  | programTooLong (size limit : Nat)
  deriving DecidableEq, Repr

/-- A problem in words. -/
def Problem.message : Problem → String
  | emptyOperand s => s!"empty operand in '{s}'"
  | duplicateLabel name => s!"duplicate label: {name}"
  | unknownOperation name => s!"unknown mnemonic: {name}"
  | wrongCount op arity found => s!"{op} takes {arity.describe} operand(s), got {found}"
  | notRegister op => s!"expected register, got '{op}'"
  | jumpRegister => "JP with offset only accepts V0"
  | notNumber u op => s!"invalid {u.name}: '{op}'"
  | tooLarge u op => s!"{u.name} out of range: {op}"
  | unknownLabel op => s!"unknown label: {op}"
  | addressTooLarge op => s!"address out of range: {op}"
  | programTooLong size limit => s!"program is {size} bytes, maximum is {limit}"

/-- A refusal: the problem and the number of its line, counted from one. -/
structure Refusal where
  line : Nat
  problem : Problem
  deriving DecidableEq, Repr

/-- A refusal in words. -/
def Refusal.message (r : Refusal) : String :=
  s!"line {r.line}: {r.problem.message}"

end Chip8.Assembly
