import Chip8.Instruction

/-!
# Opcode patterns

`Word.decode` looks at the first digit and then, family by family, at what is left. Here the same is
said instruction by instruction: the first digit, and what is fixed at the end of the word. A word
stands for an instruction exactly if it has both.

Nothing is said about the second digit. So in family `0`, where it is no operand either, two words
that differ in it only stand for the same instruction.

## Main results

* `Word.decode_eq_some_iff` — the words of an instruction
* `Word.value_eq_digits` — a word of sixteen bits is put together from its digits
-/

namespace Chip8

/-- What is fixed at the end of the words of an instruction. -/
inductive Ending where
  /-- All digits after the first are operands. -/
  | free
  | digit (n : Nat)
  | byte (nn : Nat)

namespace Instruction

/-- The first digit. -/
def family : Instruction → Nat
  | clear | ret => 0x0
  | jump => 0x1
  | call => 0x2
  | skipIfByte => 0x3
  | skipUnlessByte => 0x4
  | skipIfSame => 0x5
  | loadByte => 0x6
  | addByte => 0x7
  | copy | bitOr | bitAnd | bitXor | add | sub | shiftRight | subFrom | shiftLeft => 0x8
  | skipUnlessSame => 0x9
  | loadIndex => 0xA
  | jumpOffset => 0xB
  | random => 0xC
  | draw => 0xD
  | skipIfKey | skipUnlessKey => 0xE
  | readDelay | waitKey | setDelay | setSound | addIndex | glyph | decimal | store | load => 0xF

/-- What is fixed at the end. -/
def ending : Instruction → Ending
  | clear => .byte 0xE0
  | ret => .byte 0xEE
  | skipIfSame | skipUnlessSame | copy => .digit 0x0
  | bitOr => .digit 0x1
  | bitAnd => .digit 0x2
  | bitXor => .digit 0x3
  | add => .digit 0x4
  | sub => .digit 0x5
  | shiftRight => .digit 0x6
  | subFrom => .digit 0x7
  | shiftLeft => .digit 0xE
  | skipIfKey => .byte 0x9E
  | skipUnlessKey => .byte 0xA1
  | readDelay => .byte 0x07
  | waitKey => .byte 0x0A
  | setDelay => .byte 0x15
  | setSound => .byte 0x18
  | addIndex => .byte 0x1E
  | glyph => .byte 0x29
  | decimal => .byte 0x33
  | store => .byte 0x55
  | load => .byte 0x65
  | jump | call | skipIfByte | skipUnlessByte | loadByte | addByte | loadIndex | jumpOffset
  | random | draw => .free

end Instruction

namespace Word

/-- Whether a word has the end that is fixed. -/
def EndsWith (w : Word) : Ending → Prop
  | .free => True
  | .digit n => w.n = n
  | .byte nn => w.nn = nn

/-- The words of an instruction are those with its first digit and its end. -/
theorem decode_eq_some_iff {w : Word} {i : Instruction} :
    w.decode = some i ↔ w.family = i.family ∧ w.EndsWith i.ending := by
  constructor
  · intro h
    unfold decode at h
    split at h
    all_goals try split at h
    all_goals cases h
    all_goals exact ⟨by assumption, by trivial⟩
  · rintro ⟨hf, he⟩
    rw [decode, hf]
    cases i
    all_goals simp only [Instruction.family, Instruction.ending, EndsWith] at he ⊢
    all_goals simp only [he, reduceIte]

/-- A word that fits into sixteen bits. -/
def IsShort (w : Word) : Prop := 0 ≤ w.value ∧ w.value < 0x10000

theorem IsShort.exists_natCast {w : Word} (h : w.IsShort) : ∃ v : Nat, w = ⟨v⟩ ∧ v < 0x10000 := by
  obtain ⟨v⟩ := w
  obtain ⟨h0, h1⟩ := h
  refine ⟨v.toNat, ?_, (Int.toNat_lt h0).mpr h1⟩
  rw [Int.toNat_of_nonneg h0]

theorem ofBytes_isShort (a b : UInt8) : (ofBytes [a, b]).IsShort := by
  have := a.toNat_lt
  have := b.toNat_lt
  simp only [IsShort, ofBytes, List.foldl_cons, List.foldl_nil]
  omega

theorem nn_eq (w : Word) : w.nn = w.y * 0x10 + w.n := by
  simp only [nn, y, n, field]
  omega

theorem nnn_eq (w : Word) : w.nnn = w.x * 0x100 + w.y * 0x10 + w.n := by
  simp only [nnn, x, y, n, field]
  omega

/-- A word of sixteen bits is put together from its digits. -/
theorem value_eq_digits {w : Word} (h : w.IsShort) :
    w.value = (w.family * 0x1000 + w.x * 0x100 + w.y * 0x10 + w.n : Nat) := by
  have haddress : w.value = (w.family * 0x1000 + w.nnn : Nat) := by
    obtain ⟨h0, h1⟩ := h
    simp only [family, nnn, field]
    omega
  rw [haddress, w.nnn_eq, ← Nat.add_assoc, ← Nat.add_assoc]

end Word

end Chip8
