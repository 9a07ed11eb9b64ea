/-!
# Instruction words

A word is sixteen bits, read as four hexadecimal digits. The first tells the family and the other
three hold the operands:

```
  f x y n      x, y   register numbers
    n n n      nnn    an address
      n n      nn     a byte
        n      n      a nibble
```

The fields look at the low sixteen bits only, in two's complement, so they are defined for every
integer. The number itself is kept as it is, since it is shown when a word is no instruction.
-/

namespace Chip8

/-- A word of the program. -/
structure Word where
  value : Int
  deriving DecidableEq, Repr

namespace Word

/-- The field of size `2 ^ w` that starts `2 ^ s` up, both given as powers. -/
def field (w : Word) (start size : Int) : Nat :=
  (w.value / start % size).toNat

/-- The first digit, which tells the family. -/
def family (w : Word) : Nat := w.field 0x1000 0x10

/-- The second digit, a register number. -/
def x (w : Word) : Nat := w.field 0x100 0x10

/-- The third digit, a register number. -/
def y (w : Word) : Nat := w.field 0x10 0x10

/-- The last digit. -/
def n (w : Word) : Nat := w.field 1 0x10

/-- The last two digits, a byte. -/
def nn (w : Word) : Nat := w.field 1 0x100

/-- The last three digits, an address. -/
def nnn (w : Word) : Nat := w.field 1 0x1000

theorem field_lt (w : Word) (start : Int) {size : Nat} (h : 0 < size) :
    w.field start size < size := by
  have := Int.emod_lt_of_pos (w.value / start) (b := size) (by omega)
  have := Int.emod_nonneg (w.value / start) (b := size) (by omega)
  unfold field
  omega

theorem x_lt (w : Word) : w.x < 16 := w.field_lt 0x100 (by decide)

theorem y_lt (w : Word) : w.y < 16 := w.field_lt 0x10 (by decide)

theorem n_lt (w : Word) : w.n < 16 := w.field_lt 1 (by decide)

theorem nn_lt (w : Word) : w.nn < 256 := w.field_lt 1 (by decide)

theorem nnn_lt (w : Word) : w.nnn < 4096 := w.field_lt 1 (by decide)

/-- The word whose bytes are given, the most significant first. -/
def ofBytes (bytes : List UInt8) : Word :=
  ⟨bytes.foldl (fun (w : Int) b => w * 256 + b.toNat) 0⟩

end Word

end Chip8
