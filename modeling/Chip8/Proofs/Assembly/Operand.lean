import Chip8.Proofs.Assembly.Syntax

/-!
# Operands

What each reader of operands accepts, and as what. Registers and special names are known by their
capitals, so only `upper` of such an operand matters. Numbers and addresses are known by their
values.

No operand is a number and a name at once: `numeral?_eq_none_of_upper`. So the order in which the
readers are tried decides nothing.

## Main results

* `register?_eq_some_iff`, `number_eq_ok_iff`, `address_eq_ok_iff` — the readers
* `special?_eq_some`, `special?_of_upper` — the tables of special names
-/

namespace Chip8.Assembly

open Text

variable {operand : List Char}

/-! ### Registers -/

theorem toList_registerName : ∀ r < 16, (Word.registerName r).toList = ['V', hexDigit r] := by
  decide

theorem register?_registerName :
    ∀ r < 16, register? (Word.registerName r).toList = some r := by
  decide

/-- The digits that the reader of registers accepts are those that are written. -/
theorem hexDigit_of_toNat {d : Char} {r : Nat}
    (h : 0x30 ≤ d.toNat ∧ d.toNat ≤ 0x39 ∧ r = d.toNat - 0x30 ∨
      0x41 ≤ d.toNat ∧ d.toNat ≤ 0x46 ∧ r = d.toNat - 0x41 + 10) : r < 16 ∧ d = hexDigit r := by
  refine ⟨by omega, ?_⟩
  have hcode : d.toNat = if r < 10 then 0x30 + r else 0x41 + (r - 10) := by
    split <;> omega
  rw [← Char.ofNat_toNat d, hcode, hexDigit]
  split <;> rfl

theorem register?_eq_some_iff {r : Nat} :
    register? operand = some r ↔ r < 16 ∧ upper operand = (Word.registerName r).toList := by
  constructor
  · intro h
    have hdigit : ∃ d : Char, upper operand = ['V', d] ∧ r < 16 ∧ d = hexDigit r := by
      unfold register? at h
      split at h
      · next d hd =>
        refine ⟨d, hd, hexDigit_of_toNat ?_⟩
        split at h
        · next hr => exact .inl ⟨hr.1, hr.2, (Option.some.inj h).symm⟩
        · split at h
          · next hr => exact .inr ⟨hr.1, hr.2, (Option.some.inj h).symm⟩
          · cases h
      · cases h
    obtain ⟨d, hd, hr, rfl⟩ := hdigit
    exact ⟨hr, hd.trans (toList_registerName r hr).symm⟩
  · rintro ⟨hr, h⟩
    have hself : upper (Word.registerName r).toList = (Word.registerName r).toList := by
      have hall : ∀ r < 16, upper (Word.registerName r).toList = (Word.registerName r).toList := by
        decide
      exact hall r hr
    rw [← register?_registerName r hr, register?, register?, h, hself]

theorem register_eq_ok_iff {r : Nat} :
    register operand = .ok r ↔ register? operand = some r := by
  rw [register]
  cases register? operand <;> simp

/-! ### Numbers and addresses -/

theorem number_eq_ok_iff {unit : Unit} {v : Nat} :
    number unit operand = .ok v ↔ numeral? operand = some (v : Int) ∧ v ≤ unit.limit := by
  unfold number
  cases numeral? operand with
  | none => simp
  | some n =>
    dsimp only
    split
    · simp
      omega
    · simp
      omega

theorem address_eq_ok_iff {labels : Labels} {a : Nat} :
    address labels operand = .ok a ↔
      addressValue? labels operand = some (a : Int) ∧ a ≤ 0xFFF := by
  unfold address
  cases addressValue? labels operand with
  | none => simp
  | some n =>
    dsimp only
    split
    · simp
      omega
    · simp
      omega

/-! ### Special names -/

theorem special?_eq_some {table : List (String × Nat)} {low : Nat}
    (h : special? table operand = some low) :
    ∃ name, (name, low) ∈ table ∧ upper operand = name.toList := by
  obtain ⟨⟨name, low'⟩, hfind, rfl⟩ := Option.map_eq_some_iff.mp h
  have hname := List.find?_some hfind
  exact ⟨name, List.mem_of_find?_eq_some hfind, (beq_iff_eq.mp hname).symm⟩

/-- Only the capitals of an operand matter. -/
theorem special?_of_upper {table : List (String × Nat)} {text : List Char}
    (h : upper operand = text) :
    special? table operand = (table.find? (·.1.toList == text)).map (·.2) := by
  rw [special?, h]

/-! ### Numbers are no names -/

/-- The names that an operand can be: registers and special names. -/
def names : List (List Char) :=
  ((List.range 16).map fun r => (Word.registerName r).toList) ++
    [['I'], ['[', 'I', ']'], ['D', 'T'], ['S', 'T'], ['F'], ['B'], ['K']]

theorem registerName_mem_names : ∀ r < 16, (Word.registerName r).toList ∈ names := by
  decide

/-- The names in the slots of an instruction. -/
theorem name_mem_names {i : Instruction} {text : String} (h : Slot.name text ∈ i.slots) :
    text.toList ∈ names := by
  cases i
  all_goals
    simp only [Instruction.slots, List.mem_cons, List.not_mem_nil, Slot.name.injEq, reduceCtorEq,
      or_false, false_or] at h
  all_goals
    subst h
    decide

theorem numeral?_eq_none_of_upper (h : upper operand ∈ names) : numeral? operand = none := by
  have hnames : ∀ text ∈ names, (text.all fun c => !isBlank c) = true ∧
      upper (strip text) = text ∧ numeral? text = none := by decide +kernel
  obtain ⟨hall, hself, hnone⟩ := hnames _ h
  have hblank : ∀ c ∈ upper operand, isBlank c = false := by simpa using hall
  rw [← hnone, numeral?, numeral?, strip_of_upper hblank, hself]

end Chip8.Assembly
