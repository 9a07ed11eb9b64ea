import Mathlib.Data.List.Forall2
import Chip8.Proofs.Assembly.Operand
import Chip8.Proofs.Except
import Chip8.Proofs.Word.Pattern

/-!
# Encodings

The encoder tries one reader after the other and puts a word together from what they find. Against
the table of `Chip8.Proofs.Assembly.Syntax` this is one statement: the word of a statement is the
word of an instruction that is written with its operation, and the operands say, slot by slot, what
the word has there. `Spells` is that relation between operands and words.

Both directions are by the shape of the slots: two registers, a register and a byte, a name and a
register, an address.

## Main results

* `instructionWord_of_spells` — the encoder finds every word that the operands spell
* `exists_spells` — and no others
-/

namespace Chip8

open Assembly Text

/-! ### Words from their fields -/

namespace Word

variable {f a b c : Nat}

theorem fields_wordXY (hf : f < 16) (ha : a < 16) (hb : b < 16) (hc : c < 16) :
    (⟨wordXY f a b c⟩ : Word).IsShort ∧ (⟨wordXY f a b c⟩ : Word).family = f ∧
      (⟨wordXY f a b c⟩ : Word).x = a ∧ (⟨wordXY f a b c⟩ : Word).y = b ∧
      (⟨wordXY f a b c⟩ : Word).n = c := by
  simp only [IsShort, family, x, y, n, field, wordXY]
  omega

theorem fields_wordXB (hf : f < 16) (ha : a < 16) (hb : b < 256) :
    (⟨wordXB f a b⟩ : Word).IsShort ∧ (⟨wordXB f a b⟩ : Word).family = f ∧
      (⟨wordXB f a b⟩ : Word).x = a ∧ (⟨wordXB f a b⟩ : Word).nn = b := by
  simp only [IsShort, family, x, nn, field, wordXB]
  omega

theorem fields_wordA (hf : f < 16) (ha : a < 4096) :
    (⟨wordA f a⟩ : Word).IsShort ∧ (⟨wordA f a⟩ : Word).family = f ∧
      (⟨wordA f a⟩ : Word).nnn = a := by
  simp only [IsShort, family, nnn, field, wordA]
  omega

end Word

/-! ### Spelling -/

/-- An operand in a slot says what the word has there. -/
def Slot.Reads (labels : Labels) (w : Word) : Slot → List Char → Prop
  | x, operand => register? operand = some w.x
  | y, operand => register? operand = some w.y
  | byte, operand => numeral? operand = some (w.nn : Int)
  | nibble, operand => numeral? operand = some (w.n : Int)
  | address, operand => addressValue? labels operand = some (w.nnn : Int)
  | name text, operand => upper operand = text.toList

/-- The operands spell a word of an instruction. The second digit of family `0` is no operand, and
it is zero in what is spelled. -/
structure Spells (labels : Labels) (i : Instruction) (operands : List (List Char)) (w : Word) :
    Prop where
  short : w.IsShort
  decode : w.decode = some i
  plain : i.family = 0 → w.x = 0
  reads : List.Forall₂ (Slot.Reads labels w) i.slots operands

namespace Spells

variable {labels : Labels} {i : Instruction} {operands : List (List Char)} {w : Word}

theorem family_eq (h : Spells labels i operands w) : w.family = i.family :=
  (Word.decode_eq_some_iff.mp h.decode).1

theorem endsWith (h : Spells labels i operands w) : w.EndsWith i.ending :=
  (Word.decode_eq_some_iff.mp h.decode).2

theorem wordXY_eq (h : Spells labels i operands w) :
    wordXY i.family w.x w.y w.n = w.value.toNat := by
  rw [Word.value_eq_digits h.short, h.family_eq, Int.toNat_natCast]
  rfl

theorem wordXB_eq (h : Spells labels i operands w) : wordXB i.family w.x w.nn = w.value.toNat := by
  rw [← h.wordXY_eq, wordXB, wordXY, w.nn_eq, ← Nat.add_assoc]

theorem wordA_eq (h : Spells labels i operands w) : wordA i.family w.nnn = w.value.toNat := by
  rw [← h.wordXY_eq, wordA, wordXY, w.nnn_eq]
  omega

end Spells

namespace Assembly

variable {labels : Labels} {a b c : List Char} {v : Nat}

/-! ### What the parts of the encoder give -/

theorem twoRegisters_eq_ok_iff {family last : Nat} :
    twoRegisters family last a b = .ok v ↔
      ∃ x y, register? a = some x ∧ register? b = some y ∧ wordXY family x y last = v := by
  simp only [twoRegisters, bind_eq_ok_iff, pure_eq_ok_iff, register_eq_ok_iff, exists_and_left]

theorem shift_eq_ok_iff {last : Nat} {b : Option (List Char)} :
    shift last a b = .ok v ↔
      ∃ x y, register? a = some x ∧ register? (b.getD a) = some y ∧ wordXY 0x8 x y last = v := by
  cases b with
  | some b => exact twoRegisters_eq_ok_iff
  | none =>
    simp only [shift, bind_eq_ok_iff, pure_eq_ok_iff, register_eq_ok_iff, Option.getD_none]
    grind

theorem registerOrByte_eq_ok_iff {ofRegister ofByte : Nat → Nat → Nat} {x : Nat} :
    registerOrByte ofRegister ofByte x b = .ok v ↔
      (∃ y, register? b = some y ∧ ofRegister x y = v) ∨
        (register? b = none ∧
          ∃ k : Nat, numeral? b = some (k : Int) ∧ k < 256 ∧ ofByte x k = v) := by
  rw [registerOrByte]
  cases hb : register? b with
  | some y => simp
  | none =>
    simp only [bind_eq_ok_iff, pure_eq_ok_iff, number_eq_ok_iff]
    simp
    grind [Unit.limit]

theorem addWord_eq_ok_iff :
    addWord a b = .ok v ↔
      (upper a = ['I'] ∧ ∃ x, register? b = some x ∧ wordXB 0xF x 0x1E = v) ∨
        (upper a ≠ ['I'] ∧ ∃ x, register? a = some x ∧
          registerOrByte (wordXY 0x8 · · 4) (wordXB 0x7) x b = .ok v) := by
  rw [addWord]
  split
  · next h => simp only [bind_eq_ok_iff, pure_eq_ok_iff, register_eq_ok_iff, h]; simp
  · next h => simp only [bind_eq_ok_iff, register_eq_ok_iff]; simp [h]

theorem loadWord_eq_ok_iff :
    loadWord labels a b = .ok v ↔
      (upper a = ['I'] ∧ ∃ k, address labels b = .ok k ∧ wordA 0xA k = v) ∨
        (upper a ≠ ['I'] ∧ ∃ low, special? specialTargets a = some low ∧
          ∃ x, register? b = some x ∧ wordXB 0xF x low = v) ∨
        (upper a ≠ ['I'] ∧ special? specialTargets a = none ∧ ∃ x, register? a = some x ∧
          ((∃ low, special? specialSources b = some low ∧ wordXB 0xF x low = v) ∨
            (special? specialSources b = none ∧
              registerOrByte (wordXY 0x8 · · 0) (wordXB 0x6) x b = .ok v))) := by
  rw [loadWord]
  by_cases h : upper a = ['I']
  · simp [h, map_eq_ok_iff]
  · rw [if_neg h]
    cases special? specialTargets a with
    | some low => simp [h, map_eq_ok_iff, register_eq_ok_iff]
    | none =>
      cases special? specialSources b <;>
        simp [h, map_eq_ok_iff, bind_eq_ok_iff, register_eq_ok_iff]

/-! ### Names are told apart -/

theorem special?_of_register {x : Nat} (h : register? a = some x) :
    upper a ≠ ['I'] ∧ special? specialTargets a = none ∧ special? specialSources a = none := by
  obtain ⟨hx, hu⟩ := register?_eq_some_iff.mp h
  rw [special?, special?, hu]
  have hall : ∀ x < 16, (Word.registerName x).toList ≠ ['I'] ∧
      (specialTargets.find? (·.1.toList == (Word.registerName x).toList)).map (·.2) = none ∧
      (specialSources.find? (·.1.toList == (Word.registerName x).toList)).map (·.2) = none := by
    decide
  exact hall x hx

/-- A number is neither a register nor a special source. -/
theorem special?_of_numeral {k : Int} (h : numeral? b = some k) :
    register? b = none ∧ special? specialSources b = none := by
  have hname : upper b ∉ names := fun hm => by
    rw [numeral?_eq_none_of_upper hm] at h
    cases h
  constructor
  · refine Option.eq_none_iff_forall_ne_some.mpr fun r hr => hname ?_
    obtain ⟨hlt, hu⟩ := register?_eq_some_iff.mp hr
    exact hu ▸ registerName_mem_names r hlt
  · refine Option.eq_none_iff_forall_ne_some.mpr fun low hlow => hname ?_
    obtain ⟨name, hmem, hu⟩ := special?_eq_some hlow
    have hall : ∀ e ∈ specialSources, e.1.toList ∈ names := by decide
    exact hu ▸ hall _ hmem

/-! ### The encoder finds what is spelled -/

/-- A register operand in one place of an encoding. -/
theorem bind_register_eq_ok {x : Nat} {f : Nat → Nat} (h : register? a = some x) (hv : f x = v) :
    (do return f (← register a) : Except Problem Nat) = .ok v :=
  bind_eq_ok_iff.mpr ⟨x, register_eq_ok_iff.mpr h, pure_eq_ok_iff.mpr hv⟩

theorem bind_address_eq_ok {w : Word} {f : Nat → Nat} (h : Slot.Reads labels w .address a)
    (hv : f w.nnn = v) : (do return f (← address labels a) : Except Problem Nat) = .ok v :=
  bind_eq_ok_iff.mpr ⟨w.nnn, address_eq_ok_iff.mpr ⟨h, Nat.le_of_lt_succ w.nnn_lt⟩,
    pure_eq_ok_iff.mpr hv⟩

theorem registerOrByte_of_byte {ofRegister ofByte : Nat → Nat → Nat} {w : Word} {x : Nat}
    (h : Slot.Reads labels w .byte b) (hv : ofByte x w.nn = v) :
    registerOrByte ofRegister ofByte x b = .ok v :=
  registerOrByte_eq_ok_iff.mpr (.inr ⟨(special?_of_numeral h).1, w.nn, h, w.nn_lt, hv⟩)

theorem registerOrByte_of_register {ofRegister ofByte : Nat → Nat → Nat} {x y : Nat}
    (h : register? b = some y) (hv : ofRegister x y = v) :
    registerOrByte ofRegister ofByte x b = .ok v :=
  registerOrByte_eq_ok_iff.mpr (.inl ⟨y, h, hv⟩)

theorem instructionWord_of_spells {i : Instruction} {operands : List (List Char)} {w : Word}
    (h : Spells labels i operands w) :
    instructionWord labels i.operation operands = .ok w.value.toNat := by
  have hr := h.reads
  have he := h.endsWith
  have hxy := h.wordXY_eq
  have hxb := h.wordXB_eq
  have ha := h.wordA_eq
  cases i with
  | clear | ret =>
    cases hr
    rw [show w.nn = _ from he, h.plain rfl] at hxb
    exact congrArg Except.ok hxb
  | jump | call =>
    obtain _ | ⟨hk, _ | _⟩ := hr
    exact bind_address_eq_ok hk ha
  | jumpOffset =>
    obtain _ | ⟨hv, _ | ⟨hk, _ | _⟩⟩ := hr
    exact (if_pos hv).trans (bind_address_eq_ok hk ha)
  | skipIfByte | skipUnlessByte =>
    obtain _ | ⟨hx, _ | ⟨hn, _ | _⟩⟩ := hr
    exact bind_eq_ok_iff.mpr ⟨_, register_eq_ok_iff.mpr hx, registerOrByte_of_byte hn hxb⟩
  | skipIfSame | skipUnlessSame =>
    obtain _ | ⟨hx, _ | ⟨hy, _ | _⟩⟩ := hr
    rw [show w.n = _ from he] at hxy
    exact bind_eq_ok_iff.mpr ⟨_, register_eq_ok_iff.mpr hx, registerOrByte_of_register hy hxy⟩
  | addByte =>
    obtain _ | ⟨hx, _ | ⟨hn, _ | _⟩⟩ := hr
    exact addWord_eq_ok_iff.mpr
      (.inr ⟨(special?_of_register hx).1, _, hx, registerOrByte_of_byte hn hxb⟩)
  | add =>
    obtain _ | ⟨hx, _ | ⟨hy, _ | _⟩⟩ := hr
    rw [show w.n = _ from he] at hxy
    exact addWord_eq_ok_iff.mpr
      (.inr ⟨(special?_of_register hx).1, _, hx, registerOrByte_of_register hy hxy⟩)
  | addIndex =>
    obtain _ | ⟨hi, _ | ⟨hx, _ | _⟩⟩ := hr
    rw [show w.nn = _ from he] at hxb
    exact addWord_eq_ok_iff.mpr (.inl ⟨hi, _, hx, hxb⟩)
  | loadByte =>
    obtain _ | ⟨hx, _ | ⟨hn, _ | _⟩⟩ := hr
    obtain ⟨hi, ht, -⟩ := special?_of_register hx
    exact loadWord_eq_ok_iff.mpr (.inr (.inr ⟨hi, ht, _, hx,
      .inr ⟨(special?_of_numeral hn).2, registerOrByte_of_byte hn hxb⟩⟩))
  | copy =>
    obtain _ | ⟨hx, _ | ⟨hy, _ | _⟩⟩ := hr
    obtain ⟨hi, ht, -⟩ := special?_of_register hx
    rw [show w.n = _ from he] at hxy
    exact loadWord_eq_ok_iff.mpr (.inr (.inr ⟨hi, ht, _, hx,
      .inr ⟨(special?_of_register hy).2.2, registerOrByte_of_register hy hxy⟩⟩))
  | loadIndex =>
    obtain _ | ⟨hi, _ | ⟨hk, _ | _⟩⟩ := hr
    exact (if_pos hi).trans (bind_address_eq_ok hk ha)
  | readDelay | waitKey | load =>
    obtain _ | ⟨hx, _ | ⟨hs, _ | _⟩⟩ := hr
    obtain ⟨hi, ht, -⟩ := special?_of_register hx
    rw [show w.nn = _ from he] at hxb
    exact loadWord_eq_ok_iff.mpr (.inr (.inr ⟨hi, ht, _, hx,
      .inl ⟨_, (special?_of_upper hs).trans rfl, hxb⟩⟩))
  | setDelay | setSound | glyph | decimal | store =>
    obtain _ | ⟨ht, _ | ⟨hx, _ | _⟩⟩ := hr
    rw [show w.nn = _ from he] at hxb
    exact loadWord_eq_ok_iff.mpr (.inr (.inl ⟨by rw [show upper _ = _ from ht]; decide, _,
      (special?_of_upper ht).trans rfl, _, hx, hxb⟩))
  | bitOr | bitAnd | bitXor | sub | subFrom =>
    obtain _ | ⟨hx, _ | ⟨hy, _ | _⟩⟩ := hr
    rw [show w.n = _ from he] at hxy
    exact twoRegisters_eq_ok_iff.mpr ⟨_, _, hx, hy, hxy⟩
  | shiftRight | shiftLeft =>
    obtain _ | ⟨hx, _ | ⟨hy, _ | _⟩⟩ := hr
    rw [show w.n = _ from he] at hxy
    exact (shift_eq_ok_iff (b := some _)).mpr ⟨_, _, hx, hy, hxy⟩
  | random =>
    obtain _ | ⟨hx, _ | ⟨hn, _ | _⟩⟩ := hr
    exact bind_eq_ok_iff.mpr ⟨_, register_eq_ok_iff.mpr hx, bind_eq_ok_iff.mpr
      ⟨_, number_eq_ok_iff.mpr ⟨hn, Nat.le_of_lt_succ w.nn_lt⟩, pure_eq_ok_iff.mpr hxb⟩⟩
  | draw =>
    obtain _ | ⟨hx, _ | ⟨hy, _ | ⟨hn, _ | _⟩⟩⟩ := hr
    exact bind_eq_ok_iff.mpr ⟨_, register_eq_ok_iff.mpr hx, bind_eq_ok_iff.mpr
      ⟨_, register_eq_ok_iff.mpr hy, bind_eq_ok_iff.mpr
        ⟨_, number_eq_ok_iff.mpr ⟨hn, Nat.le_of_lt_succ w.n_lt⟩, pure_eq_ok_iff.mpr hxy⟩⟩⟩
  | skipIfKey | skipUnlessKey =>
    obtain _ | ⟨hx, _ | _⟩ := hr
    rw [show w.nn = _ from he] at hxb
    exact bind_register_eq_ok hx hxb

/-! ### The encoder finds nothing else -/

end Assembly

theorem Instruction.family_lt (i : Instruction) : i.family < 16 := by
  cases i <;> decide

namespace Spells

variable {labels : Labels} {i : Instruction} {operands : List (List Char)} {x y n k low : Nat}

theorem of_wordXY (h0 : i.family ≠ 0) (hx : x < 16) (hy : y < 16) (hn : n < 16)
    (h : ∀ w : Word, w.x = x → w.y = y → w.n = n →
      w.EndsWith i.ending ∧ List.Forall₂ (Slot.Reads labels w) i.slots operands) :
    Spells labels i operands ⟨wordXY i.family x y n⟩ := by
  obtain ⟨hs, hf, hx, hy, hn⟩ := Word.fields_wordXY i.family_lt hx hy hn
  obtain ⟨he, hr⟩ := h _ hx hy hn
  exact ⟨hs, Word.decode_eq_some_iff.mpr ⟨hf, he⟩, fun hz => absurd hz h0, hr⟩

theorem of_wordXB (h0 : i.family ≠ 0) (hx : x < 16) (hn : n < 256)
    (h : ∀ w : Word, w.x = x → w.nn = n →
      w.EndsWith i.ending ∧ List.Forall₂ (Slot.Reads labels w) i.slots operands) :
    Spells labels i operands ⟨wordXB i.family x n⟩ := by
  obtain ⟨hs, hf, hx, hn⟩ := Word.fields_wordXB i.family_lt hx hn
  obtain ⟨he, hr⟩ := h _ hx hn
  exact ⟨hs, Word.decode_eq_some_iff.mpr ⟨hf, he⟩, fun hz => absurd hz h0, hr⟩

theorem of_wordA (h0 : i.family ≠ 0) (hk : k < 4096)
    (h : ∀ w : Word, w.nnn = k →
      w.EndsWith i.ending ∧ List.Forall₂ (Slot.Reads labels w) i.slots operands) :
    Spells labels i operands ⟨wordA i.family k⟩ := by
  obtain ⟨hs, hf, hk⟩ := Word.fields_wordA i.family_lt hk
  obtain ⟨he, hr⟩ := h _ hk
  exact ⟨hs, Word.decode_eq_some_iff.mpr ⟨hf, he⟩, fun hz => absurd hz h0, hr⟩

/-- Two registers and a fixed digit. -/
theorem of_registers {a b : List Char} (h0 : i.family ≠ 0) (hs : i.slots = [.x, .y])
    (he : i.ending = .digit n) (hn : n < 16) (hx : register? a = some x)
    (hy : register? b = some y) : Spells labels i [a, b] ⟨wordXY i.family x y n⟩ := by
  refine of_wordXY h0 (register?_eq_some_iff.mp hx).1 (register?_eq_some_iff.mp hy).1 hn ?_
  rintro w rfl rfl rfl
  rw [he, hs]
  exact ⟨rfl, .cons hx (.cons hy .nil)⟩

/-- A register and a byte. -/
theorem of_byte {a b : List Char} (h0 : i.family ≠ 0) (hs : i.slots = [.x, .byte])
    (he : i.ending = .free) (hx : register? a = some x) (hb : numeral? b = some (n : Int))
    (hn : n < 256) : Spells labels i [a, b] ⟨wordXB i.family x n⟩ := by
  refine of_wordXB h0 (register?_eq_some_iff.mp hx).1 hn ?_
  rintro w rfl rfl
  rw [he, hs]
  exact ⟨trivial, .cons hx (.cons hb .nil)⟩

/-- A register as the only operand that is no name. -/
theorem of_register (h0 : i.family ≠ 0) (he : i.ending = .byte low) (hlow : low < 256) (hx : x < 16)
    (hr : ∀ w : Word, w.x = x → List.Forall₂ (Slot.Reads labels w) i.slots operands) :
    Spells labels i operands ⟨wordXB i.family x low⟩ := by
  refine of_wordXB h0 hx hlow fun w hwx hn => ⟨?_, hr w hwx⟩
  rw [he]
  exact hn

/-- An address as the only operand that is no name. -/
theorem of_address {a : List Char} (h0 : i.family ≠ 0) (he : i.ending = .free)
    (hk : address labels a = .ok k)
    (hr : ∀ w : Word, Slot.Reads labels w .address a →
      List.Forall₂ (Slot.Reads labels w) i.slots operands) :
    Spells labels i operands ⟨wordA i.family k⟩ := by
  obtain ⟨hvalue, hle⟩ := address_eq_ok_iff.mp hk
  refine of_wordA h0 (Nat.lt_succ_of_le hle) ?_
  rintro w rfl
  rw [he]
  exact ⟨trivial, hr w hvalue⟩

end Spells

namespace Assembly

variable {labels : Labels} {a b : List Char} {v x : Nat}

/-- The operands of a statement, once the second operand of a shift is there. -/
def completed : Operation → List (List Char) → List (List Char)
  | .shr, [a] | .shl, [a] => [a, a]
  | _, operands => operands

/-- What is spelled with an operation. -/
def SpellsWith (labels : Labels) (operation : Operation) (operands : List (List Char)) (v : Nat) :
    Prop :=
  ∃ i : Instruction, i.operation = operation ∧ Spells labels i operands ⟨v⟩

/-- What the second operand of a comparison, a load or an addition can be. -/
theorem spellsWith_of_registerOrByte {i j : Instruction} (hij : i.operation = j.operation)
    (hi : i.family ≠ 0) (hj : j.family ≠ 0) (his : i.slots = [.x, .y]) (hjs : j.slots = [.x, .byte])
    {last : Nat} (hl : last < 16) (hie : i.ending = .digit last) (hje : j.ending = .free)
    (hx : register? a = some x)
    (h : registerOrByte (wordXY i.family · · last) (wordXB j.family) x b = .ok v) :
    SpellsWith labels j.operation [a, b] v := by
  rcases registerOrByte_eq_ok_iff.mp h with ⟨y, hy, rfl⟩ | ⟨-, n, hn, hlt, rfl⟩
  · exact ⟨i, hij, .of_registers hi his hie hl hx hy⟩
  · exact ⟨j, rfl, .of_byte hj hjs hje hx hn hlt⟩

theorem spellsWith_of_addWord (h : addWord a b = .ok v) : SpellsWith labels .add [a, b] v := by
  rcases addWord_eq_ok_iff.mp h with ⟨hi, x, hx, rfl⟩ | ⟨-, x, hx, h⟩
  · exact ⟨.addIndex, rfl, .of_register (by decide) rfl (by decide) (register?_eq_some_iff.mp hx).1
      fun w hw => by subst hw; exact .cons hi (.cons hx .nil)⟩
  · exact spellsWith_of_registerOrByte (i := .add) (j := .addByte) rfl (by decide) (by decide) rfl
      rfl (by decide) rfl rfl hx h

theorem spellsWith_of_loadWord (h : loadWord labels a b = .ok v) :
    SpellsWith labels .ld [a, b] v := by
  rcases loadWord_eq_ok_iff.mp h with
    ⟨hi, k, hk, rfl⟩ | ⟨-, low, hlow, x, hx, rfl⟩ | ⟨-, -, x, hx, ⟨low, hlow, rfl⟩ | ⟨-, h⟩⟩
  · exact ⟨.loadIndex, rfl, .of_address (by decide) rfl hk fun w hw => .cons hi (.cons hw .nil)⟩
  · have hlt := (register?_eq_some_iff.mp hx).1
    obtain ⟨name, hmem, hname⟩ := special?_eq_some hlow
    have hreads : ∀ w : Word, w.x = x →
        List.Forall₂ (Slot.Reads labels w) [.name name, .x] [a, b] := by
      rintro w rfl
      exact .cons hname (.cons hx .nil)
    simp only [specialTargets, List.mem_cons, Prod.mk.injEq, List.not_mem_nil, or_false] at hmem
    rcases hmem with ⟨rfl, rfl⟩ | ⟨rfl, rfl⟩ | ⟨rfl, rfl⟩ | ⟨rfl, rfl⟩ | ⟨rfl, rfl⟩
    · exact ⟨.setDelay, rfl, .of_register (by decide) rfl (by decide) hlt hreads⟩
    · exact ⟨.setSound, rfl, .of_register (by decide) rfl (by decide) hlt hreads⟩
    · exact ⟨.glyph, rfl, .of_register (by decide) rfl (by decide) hlt hreads⟩
    · exact ⟨.decimal, rfl, .of_register (by decide) rfl (by decide) hlt hreads⟩
    · exact ⟨.store, rfl, .of_register (by decide) rfl (by decide) hlt hreads⟩
  · have hlt := (register?_eq_some_iff.mp hx).1
    obtain ⟨name, hmem, hname⟩ := special?_eq_some hlow
    have hreads : ∀ w : Word, w.x = x →
        List.Forall₂ (Slot.Reads labels w) [.x, .name name] [a, b] := by
      rintro w rfl
      exact .cons hx (.cons hname .nil)
    simp only [specialSources, List.mem_cons, Prod.mk.injEq, List.not_mem_nil, or_false] at hmem
    rcases hmem with ⟨rfl, rfl⟩ | ⟨rfl, rfl⟩ | ⟨rfl, rfl⟩
    · exact ⟨.readDelay, rfl, .of_register (by decide) rfl (by decide) hlt hreads⟩
    · exact ⟨.waitKey, rfl, .of_register (by decide) rfl (by decide) hlt hreads⟩
    · exact ⟨.load, rfl, .of_register (by decide) rfl (by decide) hlt hreads⟩
  · exact spellsWith_of_registerOrByte (i := .copy) (j := .loadByte) rfl (by decide) (by decide) rfl
      rfl (by decide) rfl rfl hx h

theorem spellsWith_of_twoRegisters (i : Instruction) (h0 : i.family ≠ 0) (hs : i.slots = [.x, .y])
    {last : Nat} (hl : last < 16) (he : i.ending = .digit last)
    (h : twoRegisters i.family last a b = .ok v) : SpellsWith labels i.operation [a, b] v := by
  obtain ⟨x, y, hx, hy, rfl⟩ := twoRegisters_eq_ok_iff.mp h
  exact ⟨i, rfl, .of_registers h0 hs he hl hx hy⟩

/-- A shift of one register is a shift from that register to itself. -/
theorem spellsWith_of_shift (i : Instruction) (h8 : i.family = 8) (hs : i.slots = [.x, .y])
    {last : Nat} (hl : last < 16) (he : i.ending = .digit last) {b : Option (List Char)}
    (h : shift last a b = .ok v) : SpellsWith labels i.operation [a, b.getD a] v := by
  obtain ⟨x, y, hx, hy, rfl⟩ := shift_eq_ok_iff.mp h
  rw [← h8]
  exact ⟨i, rfl, .of_registers (by rw [h8]; decide) hs he hl hx hy⟩

/-! The operands by their number: -/

section

variable {operands : List (List Char)} {arity : Arity}

theorem exists_eq_singleton (ha : some (Arity.exactly 1) = some arity)
    (hc : arity.admits operands.length = true) : ∃ a, operands = [a] := by
  obtain rfl := Option.some.inj ha
  exact List.length_eq_one_iff.mp (beq_iff_eq.mp hc)

theorem exists_eq_pair (ha : some (Arity.exactly 2) = some arity)
    (hc : arity.admits operands.length = true) : ∃ a b, operands = [a, b] := by
  obtain rfl := Option.some.inj ha
  exact List.length_eq_two.mp (beq_iff_eq.mp hc)

theorem exists_eq_singleton_or_pair (ha : some Arity.oneOrTwo = some arity)
    (hc : arity.admits operands.length = true) :
    (∃ a, operands = [a]) ∨ ∃ a b, operands = [a, b] := by
  obtain rfl := Option.some.inj ha
  exact (Bool.or_eq_true_iff.mp hc).imp (List.length_eq_one_iff.mp <| beq_iff_eq.mp ·)
    (List.length_eq_two.mp <| beq_iff_eq.mp ·)

end

/-- Every word that the encoder finds is spelled by the operands. -/
theorem exists_spells {op : Operation} {operands : List (List Char)} {arity : Arity}
    (ha : op.arity = some arity) (hc : arity.admits operands.length = true)
    (h : instructionWord labels op operands = .ok v) :
    SpellsWith labels op (completed op operands) v := by
  cases op with
  | db | dw => cases ha
  | cls =>
    obtain rfl := Option.some.inj ha
    obtain rfl := List.length_eq_zero_iff.mp (beq_iff_eq.mp hc)
    obtain rfl := Except.ok.inj h
    exact ⟨.clear, rfl, ⟨by decide, by decide⟩, rfl, fun _ => rfl, .nil⟩
  | ret =>
    obtain rfl := Option.some.inj ha
    obtain rfl := List.length_eq_zero_iff.mp (beq_iff_eq.mp hc)
    obtain rfl := Except.ok.inj h
    exact ⟨.ret, rfl, ⟨by decide, by decide⟩, rfl, fun _ => rfl, .nil⟩
  | jp =>
    rcases exists_eq_singleton_or_pair ha hc with ⟨a, rfl⟩ | ⟨t, a, rfl⟩
    · obtain ⟨k, hk, hv⟩ := bind_eq_ok_iff.mp h
      obtain rfl := pure_eq_ok_iff.mp hv
      exact ⟨.jump, rfl, .of_address (by decide) rfl hk fun w hw => .cons hw .nil⟩
    · by_cases ht : upper t = ['V', '0']
      · obtain ⟨k, hk, hv⟩ := bind_eq_ok_iff.mp ((if_pos ht).symm.trans h)
        obtain rfl := pure_eq_ok_iff.mp hv
        exact ⟨.jumpOffset, rfl, .of_address (by decide) rfl hk
          fun w hw => .cons ht (.cons hw .nil)⟩
      · cases (if_neg ht).symm.trans h
  | call =>
    obtain ⟨a, rfl⟩ := exists_eq_singleton ha hc
    obtain ⟨k, hk, hv⟩ := bind_eq_ok_iff.mp h
    obtain rfl := pure_eq_ok_iff.mp hv
    exact ⟨.call, rfl, .of_address (by decide) rfl hk fun w hw => .cons hw .nil⟩
  | se =>
    obtain ⟨a, b, rfl⟩ := exists_eq_pair ha hc
    obtain ⟨x, hx, h⟩ := bind_eq_ok_iff.mp h
    exact spellsWith_of_registerOrByte (i := .skipIfSame) (j := .skipIfByte) rfl (by decide)
      (by decide) rfl rfl (by decide) rfl rfl (register_eq_ok_iff.mp hx) h
  | sne =>
    obtain ⟨a, b, rfl⟩ := exists_eq_pair ha hc
    obtain ⟨x, hx, h⟩ := bind_eq_ok_iff.mp h
    exact spellsWith_of_registerOrByte (i := .skipUnlessSame) (j := .skipUnlessByte) rfl (by decide)
      (by decide) rfl rfl (by decide) rfl rfl (register_eq_ok_iff.mp hx) h
  | ld =>
    obtain ⟨a, b, rfl⟩ := exists_eq_pair ha hc
    exact spellsWith_of_loadWord h
  | add =>
    obtain ⟨a, b, rfl⟩ := exists_eq_pair ha hc
    exact spellsWith_of_addWord h
  | or =>
    obtain ⟨a, b, rfl⟩ := exists_eq_pair ha hc
    exact spellsWith_of_twoRegisters .bitOr (by decide) rfl (by decide) rfl h
  | and =>
    obtain ⟨a, b, rfl⟩ := exists_eq_pair ha hc
    exact spellsWith_of_twoRegisters .bitAnd (by decide) rfl (by decide) rfl h
  | xor =>
    obtain ⟨a, b, rfl⟩ := exists_eq_pair ha hc
    exact spellsWith_of_twoRegisters .bitXor (by decide) rfl (by decide) rfl h
  | sub =>
    obtain ⟨a, b, rfl⟩ := exists_eq_pair ha hc
    exact spellsWith_of_twoRegisters .sub (by decide) rfl (by decide) rfl h
  | subn =>
    obtain ⟨a, b, rfl⟩ := exists_eq_pair ha hc
    exact spellsWith_of_twoRegisters .subFrom (by decide) rfl (by decide) rfl h
  | shr =>
    rcases exists_eq_singleton_or_pair ha hc with ⟨a, rfl⟩ | ⟨a, b, rfl⟩
    · exact spellsWith_of_shift (b := none) .shiftRight rfl rfl (by decide) rfl h
    · exact spellsWith_of_shift (b := some b) .shiftRight rfl rfl (by decide) rfl h
  | shl =>
    rcases exists_eq_singleton_or_pair ha hc with ⟨a, rfl⟩ | ⟨a, b, rfl⟩
    · exact spellsWith_of_shift (b := none) .shiftLeft rfl rfl (by decide) rfl h
    · exact spellsWith_of_shift (b := some b) .shiftLeft rfl rfl (by decide) rfl h
  | rnd =>
    obtain ⟨a, b, rfl⟩ := exists_eq_pair ha hc
    obtain ⟨x, hx, h⟩ := bind_eq_ok_iff.mp h
    obtain ⟨n, hn, hv⟩ := bind_eq_ok_iff.mp h
    obtain rfl := pure_eq_ok_iff.mp hv
    obtain ⟨hn, hlt⟩ := number_eq_ok_iff.mp hn
    exact ⟨.random, rfl, .of_byte (by decide) rfl rfl (register_eq_ok_iff.mp hx) hn
      (Nat.lt_succ_of_le hlt)⟩
  | drw =>
    obtain rfl := Option.some.inj ha
    obtain ⟨a, b, c, rfl⟩ := List.length_eq_three.mp (beq_iff_eq.mp hc)
    obtain ⟨x, hx, h⟩ := bind_eq_ok_iff.mp h
    obtain ⟨y, hy, h⟩ := bind_eq_ok_iff.mp h
    obtain ⟨n, hn, hv⟩ := bind_eq_ok_iff.mp h
    obtain rfl := pure_eq_ok_iff.mp hv
    obtain ⟨hn, hlt⟩ := number_eq_ok_iff.mp hn
    rw [register_eq_ok_iff] at hx hy
    refine ⟨.draw, rfl, .of_wordXY (by decide) (register?_eq_some_iff.mp hx).1
      (register?_eq_some_iff.mp hy).1 (Nat.lt_succ_of_le hlt) ?_⟩
    rintro w rfl rfl rfl
    exact ⟨trivial, .cons hx (.cons hy (.cons hn .nil))⟩
  | skp =>
    obtain ⟨a, rfl⟩ := exists_eq_singleton ha hc
    obtain ⟨x, hx, hv⟩ := bind_eq_ok_iff.mp h
    obtain rfl := pure_eq_ok_iff.mp hv
    rw [register_eq_ok_iff] at hx
    refine ⟨.skipIfKey, rfl, .of_register (by decide) rfl (by decide)
      (register?_eq_some_iff.mp hx).1 ?_⟩
    rintro w rfl
    exact .cons hx .nil
  | sknp =>
    obtain ⟨a, rfl⟩ := exists_eq_singleton ha hc
    obtain ⟨x, hx, hv⟩ := bind_eq_ok_iff.mp h
    obtain rfl := pure_eq_ok_iff.mp hv
    rw [register_eq_ok_iff] at hx
    refine ⟨.skipUnlessKey, rfl, .of_register (by decide) rfl (by decide)
      (register?_eq_some_iff.mp hx).1 ?_⟩
    rintro w rfl
    exact .cons hx .nil

end Assembly

end Chip8
