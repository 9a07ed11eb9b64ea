import Chip8.Assembly.Encoding
import Chip8.Layout

/-!
# Assembling

Two passes over the items of a source text. The first gives every label the address of the
statement after it, from the sizes of the statements alone. The second encodes the statements,
now that every label is known, whether it was defined before its use or after.

A text is refused for the first of these that applies: an empty operand, a label defined twice, a
statement that cannot be encoded, too many bytes. The last is reported on the line of the last
item.
-/

namespace Chip8.Assembly

open Text

/-- The first pass: the labels of some items, of which the first lies at `here`, added to those
already known. -/
def collectLabels (here : Nat) (known : Labels) : List Located → Except Refusal Labels
  | [] => .ok known
  | ⟨line, .label name⟩ :: rest =>
    if (known.lookup (upper name)).isSome then
      .error ⟨line, .duplicateLabel (String.ofList name)⟩
    else collectLabels here ((upper name, here) :: known) rest
  | ⟨_, .statement s⟩ :: rest => collectLabels (here + s.size) known rest

/-- The bytes of one item. A label has none. -/
def encodeItem (labels : Labels) : Located → Except Refusal (List UInt8)
  | ⟨_, .label _⟩ => .ok []
  | ⟨line, .statement s⟩ => (encode labels s).mapError fun p => ⟨line, p⟩

/-- The second pass: the bytes of all items. -/
def encodeItems (labels : Labels) (items : List Located) : Except Refusal (List UInt8) := do
  return (← items.mapM (encodeItem labels)).flatten

/-- The number of the last line that holds an item. -/
def lastLine (items : List Located) : Nat :=
  (items.getLast?.map (·.line)).getD 0

/-- The bytes of a source text, given as its characters. -/
def assembleChars (source : List Char) : Except Refusal (List UInt8) := do
  let items ← items source
  let labels ← collectLabels programStart [] items
  let bytes ← encodeItems labels items
  if maxProgramSize < bytes.length then
    .error ⟨lastLine items, .programTooLong bytes.length maxProgramSize⟩
  else return bytes

end Chip8.Assembly

namespace Chip8

/-- The program that a source text describes, to be loaded at `programStart`. -/
def assemble (source : String) : Except Assembly.Refusal (List UInt8) :=
  Assembly.assembleChars source.toList

end Chip8
