import Chip8.Proofs.Machine.Execution

/-!
# Arithmetic with a flag

Five instructions put a number into `Vx` and then a flag into `VF`. The registers involved need not
be different: target and operands may be the same, and any of them may be `VF`. What makes this
harmless is the order of things. Both operands are read before anything is written, so number and
flag speak of the values that were there before. The flag is written last, so it stands even where
the number would have gone.

So there is one description for all five of them, whichever registers they are about. It says when
the flag is set, and what number is left in `Vx` if there is room for it.

## Main definitions

* `Machine.Flagged` — a machine after an instruction that writes a number and a flag

## Main results

* `flagged_of_writes` — two writes in a row, over whichever registers
* `flag_speaks_of_old_values` — the five instructions, and the addition without a flag
-/

namespace Chip8

namespace Processor

/-! ### Registers -/

/-- The number in a register. -/
def value (p : Processor) (r : Nat) : Int := (p.reg r).toNat

section Sixteen

variable {p : Processor} (hp : p.registers.size = registerCount) (w : Word)
include hp

theorem x_lt_size : w.x < p.registers.size := hp.symm ▸ w.x_lt

theorem y_lt_size : w.y < p.registers.size := hp.symm ▸ w.y_lt

theorem flag_lt_size : 0xF < p.registers.size := by
  rw [hp]
  decide

end Sixteen

/-- A write to one register is seen in no other. -/
theorem reg_put {p q : Processor} {x : Nat} {b : UInt8} (h : x < p.registers.size)
    (hq : q.registers = p.registers.setIfInBounds x b) (r : Nat) :
    q.reg r = if r = x then b else p.reg r := by
  rw [reg, reg, hq, Array.getElem?_setIfInBounds]
  by_cases hr : x = r
  · subst hr
    simp [h]
  · simp [hr, Ne.symm hr]

end Processor

namespace Machine

open Processor

variable {κ β δ ρ : Type}

/-! ### A number and a flag -/

/-- A machine after an instruction that has put a number into `Vx` and a flag into `VF`. When the
flag is set, and what the number is, depends on the values of `Vx` and `Vy` before. The number may
be given by the flag as well. -/
structure Flagged (m m' : Machine κ β δ ρ) (w : Word) (isSet : Int → Int → Prop)
    (number : Int → Int → Int → Int) : Prop where
  /-- Nothing has changed but the registers. -/
  rest : m' = { m with cpu := { m.cpu with registers := m'.cpu.registers } }
  /-- There are as many as before. -/
  size : m'.cpu.registers.size = m.cpu.registers.size
  set : isSet (m.cpu.value w.x) (m.cpu.value w.y) → m'.cpu.value 0xF = 1
  unset : ¬isSet (m.cpu.value w.x) (m.cpu.value w.y) → m'.cpu.value 0xF = 0
  /-- The number is there unless the flag has taken its place. -/
  target : w.x ≠ 0xF →
    m'.cpu.value w.x = number (m.cpu.value w.x) (m.cpu.value w.y) (m'.cpu.value 0xF)
  others : ∀ r, r ≠ w.x → r ≠ 0xF → m'.cpu.reg r = m.cpu.reg r

variable {m : Machine κ β δ ρ} {w : Word} {isSet : Int → Int → Prop}
  {number : Int → Int → Int → Int} {b : UInt8} {c : Bool}

/-- A processor after two writes in a row, of which the second is the flag. -/
def writeFlag (p : Processor) (x : Nat) (b : UInt8) (c : Bool) : Processor :=
  { p with registers := (p.registers.setIfInBounds x b).setIfInBounds 0xF (Effect.flag c) }

theorem reg_writeFlag {p : Processor} (hp : p.registers.size = registerCount) (b : UInt8) (c : Bool)
    (w : Word) (r : Nat) :
    (writeFlag p w.x b c).reg r =
      if r = 0xF then Effect.flag c else if r = w.x then b else p.reg r := by
  have hf : 0xF < (p.registers.setIfInBounds w.x b).size := by
    rw [Array.size_setIfInBounds]
    exact flag_lt_size hp
  rw [reg_put (p := { p with registers := p.registers.setIfInBounds w.x b }) hf rfl,
    reg_put (x_lt_size hp w) rfl]

theorem toNat_flag (c : Bool) : (Effect.flag c).toNat = if c then 1 else 0 := by
  cases c <;> rfl

/-- Whatever registers are written, the flag is there afterwards and the number is unless the flag
has taken its place. -/
theorem flagged_of_writes (hm : m.cpu.registers.size = registerCount)
    (hset : c = true ↔ isSet (m.cpu.value w.x) (m.cpu.value w.y))
    (hnumber : b.toNat = number (m.cpu.value w.x) (m.cpu.value w.y) (Effect.flag c).toNat) :
    m.Flagged { m with cpu := writeFlag m.cpu w.x b c } w isSet number := by
  have hreg := reg_writeFlag hm b c w
  have hflag : (writeFlag m.cpu w.x b c).value 0xF = (Effect.flag c).toNat := by
    rw [value, hreg, if_pos rfl]
  constructor
  case rest => rfl
  case size => simp [writeFlag]
  case set =>
    intro h
    rw [hflag, hset.mpr h]
    rfl
  case unset =>
    intro h
    have hc : c = false := Bool.eq_false_iff.mpr (mt hset.mp h)
    rw [hflag, hc]
    rfl
  case target =>
    intro hx
    rw [hflag, value, hreg, if_neg hx, if_pos rfl, hnumber]
  case others =>
    intro r hx hf
    rw [hreg, if_neg hf, if_neg hx]

/-! ### The instructions -/

variable [KeyInput κ] [Display δ] [ByteSource ρ]

theorem execute_combineFlag {i : Instruction} {f : UInt8 → UInt8 → UInt8}
    {g : UInt8 → UInt8 → Bool} (hm : m.cpu.registers.size = registerCount) (hi : w.decode = some i)
    (hh : (standardTable (κ := κ) (β := β) (δ := δ) (ρ := ρ)).handler? i =
      some fun w => onCpu (Effect.combineFlag f g w.x w.y)) :
    execute w m = .ok () { m with
      cpu := writeFlag m.cpu w.x (f (m.cpu.reg w.x) (m.cpu.reg w.y))
        (g (m.cpu.reg w.x) (m.cpu.reg w.y)) } := by
  rw [execute_of hi hh]
  exact onCpu_ok (Effect.combineFlag_eq f g (x_lt_size hm w) (y_lt_size hm w) (flag_lt_size hm))

theorem execute_shift {i : Instruction} {f : UInt8 → UInt8} {bit : UInt8 → Bool}
    (hm : m.cpu.registers.size = registerCount) (hi : w.decode = some i)
    (hh : (standardTable (κ := κ) (β := β) (δ := δ) (ρ := ρ)).handler? i =
      some fun w => onCpu (Effect.shift f bit w.x w.y)) :
    execute w m = .ok () { m with
      cpu := writeFlag m.cpu w.x (f (m.cpu.reg w.y)) (bit (m.cpu.reg w.y)) } := by
  rw [execute_of hi hh]
  exact onCpu_ok (Effect.shift_eq f bit (x_lt_size hm w) (y_lt_size hm w) (flag_lt_size hm))

/-- Arithmetic under any choice of registers. The five instructions with a flag read both operands
before they write, and write the flag last. So the flag in `VF` is right whichever registers are
meant, and the number in `Vx` is unless that is `VF`. No other register changes. The addition of a
byte has no flag. -/
theorem flag_speaks_of_old_values (m : Machine κ β δ ρ) (w : Word)
    (hm : m.cpu.registers.size = registerCount) :
    (w.decode = some .add → ∃ m', execute w m = .ok () m' ∧
      m.Flagged m' w (fun a b => 0xFF < a + b) fun a b flag => a + b - 256 * flag) ∧
    (w.decode = some .sub → ∃ m', execute w m = .ok () m' ∧
      m.Flagged m' w (fun a b => b < a) fun a b _ => (a - b) % 256) ∧
    (w.decode = some .subFrom → ∃ m', execute w m = .ok () m' ∧
      m.Flagged m' w (fun a b => a < b) fun a b _ => (b - a) % 256) ∧
    (w.decode = some .shiftRight → ∃ m', execute w m = .ok () m' ∧
      m.Flagged m' w (fun _ b => b % 2 = 1) fun _ b _ => b / 2) ∧
    (w.decode = some .shiftLeft → ∃ m', execute w m = .ok () m' ∧
      m.Flagged m' w (fun _ b => 128 ≤ b) fun _ b flag => 2 * b - 256 * flag) ∧
    (w.decode = some .addByte → ∃ m', execute w m = .ok () m' ∧
      m' = { m with cpu := { m.cpu with registers := m'.cpu.registers } } ∧
      m'.cpu.registers.size = m.cpu.registers.size ∧
      m'.cpu.value w.x = (m.cpu.value w.x + w.nn) % 256 ∧
      ∀ r, r ≠ w.x → m'.cpu.reg r = m.cpu.reg r) := by
  have ha := (m.cpu.reg w.x).toNat_lt
  have hb := (m.cpu.reg w.y).toNat_lt
  have hx := x_lt_size hm w
  refine ⟨fun hadd => ?_, fun hsub => ?_, fun hsubFrom => ?_, fun hright => ?_, fun hleft => ?_,
    fun hbyte => ?_⟩
  · refine ⟨_, execute_combineFlag hm hadd rfl, flagged_of_writes hm ?_ ?_⟩
    · simp only [value, decide_eq_true_eq]
      omega
    · simp only [value, toNat_flag, UInt8.toNat_add, decide_eq_true_eq]
      split <;> omega
  · refine ⟨_, execute_combineFlag hm hsub rfl, flagged_of_writes hm ?_ ?_⟩
    · simp only [value, decide_eq_true_eq, UInt8.lt_iff_toNat_lt, Int.ofNat_lt]
    · simp only [value, UInt8.toNat_sub]
      omega
  · refine ⟨_, execute_combineFlag hm hsubFrom rfl, flagged_of_writes hm ?_ ?_⟩
    · simp only [value, decide_eq_true_eq, UInt8.lt_iff_toNat_lt, Int.ofNat_lt]
    · simp only [value, UInt8.toNat_sub]
      omega
  · have hhalf : (m.cpu.reg w.y >>> 1).toNat = (m.cpu.reg w.y).toNat / 2 := by
      rw [UInt8.toNat_shiftRight, Nat.shiftRight_eq_div_pow]
      rfl
    refine ⟨_, execute_shift hm hright rfl, flagged_of_writes hm ?_ ?_⟩
    · simp only [value, decide_eq_true_eq]
      omega
    · simp only [value, hhalf]
      omega
  · have hdouble : (m.cpu.reg w.y <<< 1).toNat = (m.cpu.reg w.y).toNat * 2 % 256 := by
      rw [UInt8.toNat_shiftLeft, Nat.shiftLeft_eq]
      rfl
    refine ⟨_, execute_shift hm hleft rfl, flagged_of_writes hm ?_ ?_⟩
    · simp only [value, decide_eq_true_eq]
      omega
    · simp only [value, toNat_flag, hdouble, decide_eq_true_eq]
      split <;> omega
  · have hreg := reg_put (q := { m.cpu with
      registers := m.cpu.registers.setIfInBounds w.x (m.cpu.reg w.x + UInt8.ofNat w.nn) }) hx rfl
    refine ⟨_, (execute_of hbyte rfl).trans (addByte_eq hx), rfl, Array.size_setIfInBounds, ?_, ?_⟩
    · simp only [value, hreg, if_pos, UInt8.toNat_add, UInt8.toNat_ofNat']
      omega
    · intro r hr
      exact (hreg r).trans (if_neg hr)

/-- `VF` as an operand, and as the target. An addition that carries uses the old `VF`, and a
subtraction from `VF` leaves nothing of the difference. -/
theorem flag_speaks_of_old_values_in_flag :
    ∃ (m m₁ m₂ : Machine NoKeys BeepCounter Recorder ByteLoop),
      m.cpu.value 1 = 200 ∧ m.cpu.value 0xF = 100 ∧
      execute ⟨0x81F4⟩ m = .ok () m₁ ∧ m₁.cpu.value 1 = 44 ∧ m₁.cpu.value 0xF = 1 ∧
      execute ⟨0x8F15⟩ m = .ok () m₂ ∧ m₂.cpu.value 1 = 200 ∧ m₂.cpu.value 0xF = 0 := by
  obtain ⟨m, hm, hone, hflag⟩ : ∃ m : Machine NoKeys BeepCounter Recorder ByteLoop,
      m.cpu.registers.size = registerCount ∧ m.cpu.reg 1 = 200 ∧ m.cpu.reg 0xF = 100 :=
    ⟨headless { Processor.powerOn with
      registers := #[0, 200, 0, 0, 0, 0, 0, 0, 0, 0, 0, 0, 0, 0, 0, 100] }, rfl, rfl, rfl⟩
  have hvalues : m.cpu.value 1 = 200 ∧ m.cpu.value 0xF = 100 := by
    rw [value, value, hone, hflag]
    decide
  obtain ⟨m₁, he₁, h₁⟩ := (flag_speaks_of_old_values m ⟨0x81F4⟩ hm).1 rfl
  obtain ⟨m₂, he₂, h₂⟩ := (flag_speaks_of_old_values m ⟨0x8F15⟩ hm).2.1 rfl
  have hset : m₁.cpu.value 0xF = 1 := h₁.set (by
    change 0xFF < m.cpu.value 1 + m.cpu.value 0xF
    omega)
  have hnumber : m₁.cpu.value 1 = m.cpu.value 1 + m.cpu.value 0xF - 256 * m₁.cpu.value 0xF :=
    h₁.target (by decide)
  have hunset : m₂.cpu.value 0xF = 0 := h₂.unset (by
    change ¬m.cpu.value 1 < m.cpu.value 0xF
    omega)
  have hkept : m₂.cpu.reg 1 = m.cpu.reg 1 := h₂.others 1 (by decide) (by decide)
  refine ⟨m, m₁, m₂, hvalues.1, hvalues.2, he₁, by omega, hset, he₂, ?_, hunset⟩
  rw [value, hkept]
  exact hvalues.1

end Machine

end Chip8
