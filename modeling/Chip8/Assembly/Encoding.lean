import Chip8.Assembly.Source
import Chip8.Text.Numeral

/-!
# Statements as bytes

Each operation has a number of operands, and each operand is a register, a number, an address or
one of the special names `I`, `[I]`, `DT`, `ST`, `F`, `B` and `K`. Case does not matter anywhere.

An address is a label or a number, and a label wins. Elsewhere labels have no meaning.

## Order of refusal

The number of operands is looked at first, then the operands from left to right. So a statement
with two faults is refused for its leftmost one.
-/

namespace Chip8.Assembly

open Text

/-- Labels in capitals, each with its address. -/
abbrev Labels := List (List Char × Nat)

/-- What a statement can ask for. -/
inductive Operation where
  | cls | ret | jp | call | se | sne | ld | add | or | and | xor | sub | subn | shr | shl | rnd
  | drw | skp | sknp
  /-- Data, a byte for each operand. -/
  | db
  /-- Data, a word for each operand. -/
  | dw
  deriving DecidableEq, Repr

namespace Operation

/-- The name of an operation in a source text. -/
def name : Operation → String
  | cls => "CLS"
  | ret => "RET"
  | jp => "JP"
  | call => "CALL"
  | se => "SE"
  | sne => "SNE"
  | ld => "LD"
  | add => "ADD"
  | or => "OR"
  | and => "AND"
  | xor => "XOR"
  | sub => "SUB"
  | subn => "SUBN"
  | shr => "SHR"
  | shl => "SHL"
  | rnd => "RND"
  | drw => "DRW"
  | skp => "SKP"
  | sknp => "SKNP"
  | db => "DB"
  | dw => "DW"

/-- All operations. -/
def all : List Operation :=
  [cls, ret, jp, call, se, sne, ld, add, or, and, xor, sub, subn, shr, shl, rnd, drw, skp, sknp,
    db, dw]

@[simp] theorem mem_all (o : Operation) : o ∈ all := by cases o <;> decide

/-- The operation of a given name. -/
def ofName? (text : List Char) : Option Operation :=
  all.find? (·.name.toList == text)

/-- The number of operands. Data takes any number. -/
def arity : Operation → Option Arity
  | cls | ret => some (.exactly 0)
  | call | skp | sknp => some (.exactly 1)
  | jp | shr | shl => some .oneOrTwo
  | se | sne | ld | add | or | and | xor | sub | subn | rnd => some (.exactly 2)
  | drw => some (.exactly 3)
  | db | dw => none

end Operation

/-! ## Operands -/

/-- The number of a register, if an operand names one. -/
def register? (operand : List Char) : Option Nat :=
  match upper operand with
  | ['V', d] =>
    if '0'.toNat ≤ d.toNat ∧ d.toNat ≤ '9'.toNat then some (d.toNat - '0'.toNat)
    else if 'A'.toNat ≤ d.toNat ∧ d.toNat ≤ 'F'.toNat then some (d.toNat - 'A'.toNat + 10)
    else none
  | _ => none

/-- The number of a register. -/
def register (operand : List Char) : Except Problem Nat :=
  match register? operand with
  | some r => .ok r
  | none => .error (.notRegister (String.ofList operand))

/-- A number of a given kind. -/
def number (unit : Unit) (operand : List Char) : Except Problem Nat :=
  match numeral? operand with
  | none => .error (.notNumber unit (String.ofList operand))
  | some v =>
    if 0 ≤ v ∧ v ≤ unit.limit then .ok v.toNat
    else .error (.tooLarge unit (String.ofList operand))

/-- A label or a number, whatever its size. -/
def addressValue? (labels : Labels) (operand : List Char) : Option Int :=
  match labels.lookup (upper operand) with
  | some a => some a
  | none => numeral? operand

/-- The address an operand stands for. -/
def address (labels : Labels) (operand : List Char) : Except Problem Nat :=
  match addressValue? labels operand with
  | none => .error (.unknownLabel (String.ofList operand))
  | some v =>
    if 0 ≤ v ∧ v ≤ 0xFFF then .ok v.toNat
    else .error (.addressTooLarge (String.ofList operand))

/-! ## Words from fields -/

/-- A word with two register operands and a last digit. -/
def wordXY (family x y last : Nat) : Nat :=
  family * 0x1000 + x * 0x100 + y * 0x10 + last

/-- A word with a register operand and a byte. -/
def wordXB (family x byte : Nat) : Nat :=
  family * 0x1000 + x * 0x100 + byte

/-- A word with an address. -/
def wordA (family address : Nat) : Nat :=
  family * 0x1000 + address

/-! ## Instructions -/

/-- A word whose second operand is a register or a byte. -/
def registerOrByte (ofRegister ofByte : Nat → Nat → Nat) (x : Nat) (operand : List Char) :
    Except Problem Nat :=
  match register? operand with
  | some y => .ok (ofRegister x y)
  | none => do return ofByte x (← number .byte operand)

/-- A word with two register operands. -/
def twoRegisters (family last : Nat) (a b : List Char) : Except Problem Nat := do
  let x ← register a
  let y ← register b
  return wordXY family x y last

/-- A shift: the second operand defaults to the first. -/
def shift (last : Nat) (a : List Char) (b : Option (List Char)) : Except Problem Nat := do
  let x ← register a
  let y ← match b with
    | some b => register b
    | none => pure x
  return wordXY 0x8 x y last

/-- The places other than registers that a register can be put into, and the low byte that says
so. -/
def specialTargets : List (String × Nat) :=
  [("DT", 0x15), ("ST", 0x18), ("F", 0x29), ("B", 0x33), ("[I]", 0x55)]

/-- The places other than registers that a register can be loaded from. -/
def specialSources : List (String × Nat) :=
  [("DT", 0x07), ("K", 0x0A), ("[I]", 0x65)]

/-- The entry of a table of special names for an operand. -/
def special? (table : List (String × Nat)) (operand : List Char) : Option Nat :=
  (table.find? (·.1.toList == upper operand)).map (·.2)

/-- The word of a load. -/
def loadWord (labels : Labels) (target source : List Char) : Except Problem Nat :=
  if upper target = ['I'] then do return wordA 0xA (← address labels source)
  else
    match special? specialTargets target with
    | some low => do return wordXB 0xF (← register source) low
    | none => do
      let x ← register target
      match special? specialSources source with
      | some low => return wordXB 0xF x low
      | none => registerOrByte (wordXY 0x8 · · 0) (wordXB 0x6) x source

/-- The word of an addition. -/
def addWord (target source : List Char) : Except Problem Nat :=
  if upper target = ['I'] then do return wordXB 0xF (← register source) 0x1E
  else do
    let x ← register target
    registerOrByte (wordXY 0x8 · · 4) (wordXB 0x7) x source

/-- The word of a statement with the right number of operands. -/
def instructionWord (labels : Labels) (operation : Operation) (operands : List (List Char)) :
    Except Problem Nat :=
  match operation, operands with
  | .cls, _ => .ok 0x00E0
  | .ret, _ => .ok 0x00EE
  | .jp, [a] => do return wordA 0x1 (← address labels a)
  | .jp, [v, a] =>
    if upper v = ['V', '0'] then do return wordA 0xB (← address labels a)
    else .error .jumpRegister
  | .call, [a] => do return wordA 0x2 (← address labels a)
  | .se, [a, b] => do registerOrByte (wordXY 0x5 · · 0) (wordXB 0x3) (← register a) b
  | .sne, [a, b] => do registerOrByte (wordXY 0x9 · · 0) (wordXB 0x4) (← register a) b
  | .ld, [a, b] => loadWord labels a b
  | .add, [a, b] => addWord a b
  | .or, [a, b] => twoRegisters 0x8 0x1 a b
  | .and, [a, b] => twoRegisters 0x8 0x2 a b
  | .xor, [a, b] => twoRegisters 0x8 0x3 a b
  | .sub, [a, b] => twoRegisters 0x8 0x5 a b
  | .subn, [a, b] => twoRegisters 0x8 0x7 a b
  | .shr, [a] => shift 0x6 a none
  | .shr, [a, b] => shift 0x6 a (some b)
  | .shl, [a] => shift 0xE a none
  | .shl, [a, b] => shift 0xE a (some b)
  | .rnd, [a, b] => do return wordXB 0xC (← register a) (← number .byte b)
  | .drw, [a, b, c] => do
    let x ← register a
    let y ← register b
    return wordXY 0xD x y (← number .nibble c)
  | .skp, [a] => do return wordXB 0xE (← register a) 0x9E
  | .sknp, [a] => do return wordXB 0xE (← register a) 0xA1
  | op, ops => .error (.wrongCount op.name (op.arity.getD (.exactly 0)) ops.length)

/-- The two bytes of a word, the most significant first. -/
def bytesOfWord (w : Nat) : List UInt8 :=
  [UInt8.ofNat (w / 0x100), UInt8.ofNat w]

/-- The bytes of a statement. -/
def encode (labels : Labels) (s : Statement) : Except Problem (List UInt8) :=
  match Operation.ofName? s.operation with
  | none => .error (.unknownOperation (String.ofList s.operation))
  | some .db => do return (← s.operands.mapM (number .byte)).map UInt8.ofNat
  | some .dw => do return (← s.operands.mapM (number .word)).flatMap bytesOfWord
  | some op =>
    match op.arity with
    | some arity =>
      if arity.admits s.operands.length then do
        return bytesOfWord (← instructionWord labels op s.operands)
      else .error (.wrongCount op.name arity s.operands.length)
    | none => .ok []

/-- The number of bytes a statement takes, known before its labels are. -/
def Statement.size (s : Statement) : Nat :=
  match Operation.ofName? s.operation with
  | some .db => s.operands.length
  | some .dw => 2 * s.operands.length
  | _ => 2

end Chip8.Assembly
