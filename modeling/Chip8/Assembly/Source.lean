import Chip8.Assembly.Problem
import Chip8.Text.Blank
import Chip8.Text.Uppercase

/-!
# Source texts as statements

A source text is cut into lines, and each line into what it defines and what it says:

```
  first: second:  DRW V1, V2, 5   ; comment
  └──── labels ┘  └── statement ┘
```

A semicolon starts a comment. Blanks around labels, operations and operands do not count. A line
may define any number of labels, and its statement may be absent.

Cutting is one pass from the left: the pieces between colons are labels as long as they are names,
and the first piece that is none starts the statement, colons and all.
-/

namespace Chip8.Assembly

open Text

/-- An operation in capitals, and its operands as written. -/
structure Statement where
  operation : List Char
  operands : List (List Char)
  deriving DecidableEq, Repr

/-- What a source text consists of. -/
inductive Item where
  | label (name : List Char)
  | statement (s : Statement)
  deriving DecidableEq, Repr

/-- An item and the number of its line. -/
structure Located where
  line : Nat
  item : Item
  deriving DecidableEq, Repr

/-- What a name may start with. -/
def isNameStart (c : Char) : Bool :=
  c.isAlpha || c == '_'

/-- What a name may go on with. -/
def isNamePart (c : Char) : Bool :=
  c.isAlphanum || c == '_'

/-- Whether a text is a name: letters, digits and underscores of ASCII, no digit first. -/
def isName : List Char → Bool
  | [] => false
  | c :: cs => isNameStart c && cs.all isNamePart

/-- The labels at the start of a line, and what follows them. The line is given as its pieces
between colons. -/
def leadingLabels : List (List Char) → List (List Char) × List Char
  | [] => ([], [])
  | [p] => ([], strip p)
  | p :: q :: ps =>
    if isName (strip p) then
      let (labels, rest) := leadingLabels (q :: ps)
      (strip p :: labels, rest)
    else ([], strip (joined ':' (p :: q :: ps)))

/-- A line without its comment. -/
def withoutComment (line : List Char) : List Char :=
  line.takeWhile (· ≠ ';')

/-- The operands of a statement, from the text after its operation. -/
def operandsOf (text : List Char) : List (List Char) :=
  match stripLeft text with
  | [] => []
  | cs => (pieces ',' cs).map strip

/-- The statement in a text without blanks at its ends, if there is one. -/
def Statement.parse (text : List Char) : Except Problem (Option Statement) :=
  match text with
  | [] => .ok none
  | _ =>
    let operation := text.takeWhile (!isBlank ·)
    let operands := operandsOf (text.dropWhile (!isBlank ·))
    if operands.any List.isEmpty then .error (.emptyOperand (String.ofList text))
    else .ok (some ⟨upper operation, operands⟩)

/-- The items of one line. -/
def itemsOfLine (number : Nat) (line : List Char) : Except Refusal (List Located) :=
  let (labels, rest) := leadingLabels (pieces ':' (withoutComment line))
  match Statement.parse rest with
  | .error p => .error ⟨number, p⟩
  | .ok none => .ok (labels.map fun l => ⟨number, .label l⟩)
  | .ok (some s) => .ok (labels.map (fun l => ⟨number, .label l⟩) ++ [⟨number, .statement s⟩])

/-- The items of a source text in their order. Lines are counted from one. -/
def items (source : List Char) : Except Refusal (List Located) := do
  let perLine ← ((pieces '\n' source).zipIdx 1).mapM fun (line, number) => itemsOfLine number line
  return perLine.flatten

end Chip8.Assembly
