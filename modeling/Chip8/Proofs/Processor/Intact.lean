import Chip8.Proofs.Processor.Access

/-!
# Intact processors

A processor is intact when everything in it has the right size and range. This is what a running
machine keeps to, so it is the hypothesis of nearly every theorem about cycles.

It differs from `Processor.isValid` in the program counter. A jump may lead to an odd address, or
by `BNNN` up to `0x10FE`, beyond the end of memory: the machine gets there, and only its next fetch
fails. So the program counter is bounded by what can be reached, and `isValid_iff` says what
separates the two.
-/

namespace Chip8

namespace Processor

/-- Everything has the size and the range it has while the machine runs. -/
structure Intact (p : Processor) : Prop where
  registers : p.registers.size = registerCount
  memory : p.memory.size = memorySize
  stack : p.stack.size = stackDepth
  /-- Calls come from memory, so the address after a call is at most the end of memory. -/
  slots : ∀ s < stackDepth, 0 ≤ p.slot s ∧ p.slot s ≤ memorySize
  sp : 0 ≤ p.sp ∧ p.sp ≤ stackDepth
  index : 0 ≤ p.index ∧ p.index ≤ 0xFFFF
  /-- No jump leads further than `0xFFF` with the greatest byte on top. -/
  pc : 0 ≤ p.pc ∧ p.pc ≤ 0x10FE
  delay : 0 ≤ p.delay ∧ p.delay ≤ 0xFF
  sound : 0 ≤ p.sound ∧ p.sound ≤ 0xFF

theorem size_initialMemory : initialMemory.size = memorySize := by
  rw [initialMemory, size_overwrite] <;> simp [memorySize, glyphs]

theorem intact_powerOn : powerOn.Intact where
  registers := by simp [powerOn]
  memory := by rw [powerOn, size_initialMemory]
  stack := by simp [powerOn]
  slots := by
    intro s hs
    have : powerOn.slot s = 0 := by simp [slot, powerOn, hs]
    rw [this]
    decide
  sp := by decide
  index := by decide
  pc := by decide
  delay := by decide
  sound := by decide

/-- Whether an intact processor is valid is a question about its program counter alone. -/
theorem Intact.isValid_iff {p : Processor} (h : p.Intact) (hc : 0 ≤ p.cycles) :
    p.isValid = true ↔ p.pc % 2 = 0 ∧ p.pc < memorySize := by
  have := h.pc
  simp only [isValid, isByte, Bool.and_eq_true, beq_iff_eq, decide_eq_true_eq]
  constructor
  · rintro ⟨⟨⟨⟨⟨_, ⟨hpar, _⟩, hlt⟩, _⟩, _⟩, _⟩, _⟩
    exact ⟨hpar, hlt⟩
  · rintro ⟨hpar, hlt⟩
    exact ⟨⟨⟨⟨⟨⟨⟨h.registers, h.memory⟩, h.stack⟩, ⟨hpar, h.pc.1⟩, hlt⟩, h.index⟩, h.sp⟩,
      h.delay, h.sound⟩, hc⟩

/-! ### Sixteen bits -/

/-- The program counter is reduced to sixteen bits wherever it is changed by counting: past the
word, past a skipped word, back to the word, and `V0` after an address. These are the places, and
nowhere does it make a difference. -/
structure Unmasked (p : Processor) : Prop where
  next : (p.pc + 2) % 0x10000 = p.pc + 2
  skip : (p.pc + 2 + 2) % 0x10000 = p.pc + 4
  back : (p.pc + 2 + -2) % 0x10000 = p.pc
  offset : ((p.reg 0).toNat + p.word.nnn : Int) % 0x10000 = (p.reg 0).toNat + p.word.nnn

theorem Intact.unmasked {p : Processor} (h : p.Intact) : p.Unmasked := by
  have hpc := h.pc
  have h0 := (p.reg 0).toNat_lt
  have hn := p.word.nnn_lt
  constructor <;> omega

/-! ### Programs -/

/-- The processor with a program in memory, where programs are loaded. -/
def withProgram (p : Processor) (program : List UInt8) : Processor :=
  { p with memory := overwrite p.memory programStart program }

/-- A program that is too long is one that does not fit above `programStart`. -/
theorem maxProgramSize_lt_iff (n : Nat) :
    maxProgramSize < n ↔ memorySize < programStart + n := by
  rw [maxProgramSize, memorySize, programStart]
  omega

theorem Intact.withProgram {p : Processor} (h : p.Intact) {program : List UInt8}
    (hl : program.length ≤ maxProgramSize) : (p.withProgram program).Intact := by
  have hfit : programStart + program.length ≤ p.memory.size := by
    have := maxProgramSize_lt_iff program.length
    rw [h.memory]
    omega
  exact { h with memory := (size_overwrite hfit).trans h.memory }

/-! ### Registers that there are -/

theorem Intact.x_lt {p : Processor} (h : p.Intact) (w : Word) : w.x < p.registers.size := by
  rw [h.registers]
  exact w.x_lt

theorem Intact.y_lt {p : Processor} (h : p.Intact) (w : Word) : w.y < p.registers.size := by
  rw [h.registers]
  exact w.y_lt

/-- The register that flags go to. -/
theorem Intact.flag_lt {p : Processor} (h : p.Intact) : 0xF < p.registers.size := by
  rw [h.registers]
  decide

/-! ### The parts that a change leaves alone -/

/-- Counting cycles does not matter. -/
theorem Intact.setCycles {p : Processor} (h : p.Intact) (n : Int) :
    ({ p with cycles := n } : Processor).Intact :=
  { h with }

theorem Intact.setPc {p : Processor} (h : p.Intact) {a : Int} (ha : 0 ≤ a ∧ a ≤ 0x10FE) :
    ({ p with pc := a } : Processor).Intact :=
  { h with pc := ha }

/-- The address in the slot that a return takes it from. -/
theorem Intact.slot_pred_sp {p : Processor} (h : p.Intact) (hs : p.sp ≠ 0) :
    0 ≤ p.slot (p.sp - 1).toNat ∧ p.slot (p.sp - 1).toNat ≤ memorySize := by
  have := h.sp
  exact h.slots _ (by omega)

end Processor

end Chip8
