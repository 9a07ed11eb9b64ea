/-!
# Blank characters

What separates an operation from its operands and may surround an operand: every character that
Unicode counts as white space, together with the four information separators. The set is wider
than the blanks of ASCII, so a no-break space or an ideographic space separates too.
-/

namespace Chip8.Text

/-- White space of Unicode, and the information separators `1C` to `1F`. -/
def isBlank (c : Char) : Bool :=
  let n := c.toNat
  (0x09 ≤ n && n ≤ 0x0D) || (0x1C ≤ n && n ≤ 0x20) || n == 0x85 || n == 0xA0 || n == 0x1680 ||
    (0x2000 ≤ n && n ≤ 0x200A) || n == 0x2028 || n == 0x2029 || n == 0x202F || n == 0x205F ||
    n == 0x3000

/-- `cs` without its leading blanks. -/
def stripLeft (cs : List Char) : List Char :=
  cs.dropWhile isBlank

/-- `cs` without its trailing blanks. -/
def stripRight (cs : List Char) : List Char :=
  (cs.reverse.dropWhile isBlank).reverse

/-- `cs` without the blanks at either end. -/
def strip (cs : List Char) : List Char :=
  stripRight (stripLeft cs)

/-- One character more at the front of a cut text: a separator starts a new piece. -/
def cutAt (sep c : Char) : List (List Char) → List (List Char)
  | [] => if c = sep then [[], []] else [[c]]
  | p :: ps => if c = sep then [] :: p :: ps else (c :: p) :: ps

/-- The pieces of `cs` between the occurrences of `sep`: one more than there are occurrences. -/
def pieces (sep : Char) (cs : List Char) : List (List Char) :=
  cs.foldr (cutAt sep) [[]]

@[simp] theorem pieces_nil (sep : Char) : pieces sep [] = [[]] := rfl

@[simp] theorem pieces_cons (sep c : Char) (cs : List Char) :
    pieces sep (c :: cs) = cutAt sep c (pieces sep cs) := rfl

/-- The pieces put together again, `sep` between each two. -/
def joined (sep : Char) : List (List Char) → List Char
  | [] => []
  | [p] => p
  | p :: q :: ps => p ++ sep :: joined sep (q :: ps)

theorem cutAt_ne_nil (sep c : Char) (ps : List (List Char)) : cutAt sep c ps ≠ [] := by
  cases ps <;> simp only [cutAt] <;> split <;> simp

/-- There is always a first piece. -/
theorem pieces_ne_nil (sep : Char) (cs : List Char) : pieces sep cs ≠ [] := by
  cases cs with
  | nil => simp
  | cons c cs => exact cutAt_ne_nil sep c _

theorem joined_cutAt (sep c : Char) {ps : List (List Char)} (h : ps ≠ []) :
    joined sep (cutAt sep c ps) = c :: joined sep ps := by
  match ps with
  | [p] => by_cases hc : c = sep <;> simp [cutAt, joined, hc]
  | p :: q :: ps => by_cases hc : c = sep <;> simp [cutAt, joined, hc]

/-- Cutting loses nothing. -/
theorem joined_pieces (sep : Char) (cs : List Char) : joined sep (pieces sep cs) = cs := by
  induction cs with
  | nil => rfl
  | cons c cs ih => rw [pieces_cons, joined_cutAt sep c (pieces_ne_nil sep cs), ih]

end Chip8.Text
