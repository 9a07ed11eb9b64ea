import Chip8.Proofs.Assembly.Written
import Chip8.Proofs.Machine.Execution

/-!
# Words that are disassembled and assembled again

The assembly text of a word shows its operands, and nothing that is not one. So what comes back is
the word that is shown, which is not always the word that was there: a word of family `0` has a
second digit that no part of the machine looks at, and `CLS` and `RET` do not show it.

`Word.shown` is that word, and it stands for the original in every respect but its number. A word
that is no instruction is shown as a number, so it does come back.

## Main results

* `Spells.of_text` — the operands that a word is written with spell what is shown of it
* `mnemonic_emits` — the line of a word comes to the word that is shown
* `reassembled_stands_for` — every program comes back as one that does the same
-/

namespace Chip8

open Assembly Text

namespace Word

/-- What the assembly text of a word shows of it. -/
def shown (w : Word) : Word :=
  match w.decode with
  | some .clear => ⟨0x00E0⟩
  | some .ret => ⟨0x00EE⟩
  | _ => w

/-- The two bytes of a word, the most significant first. -/
def bytes (w : Word) : List UInt8 := bytesOfWord w.value.toNat

variable {w : Word} {i : Instruction}

theorem ofBytes_bytes (h : w.IsShort) : ofBytes w.bytes = w := by
  obtain ⟨v⟩ := w
  obtain ⟨h0, h1⟩ := h
  rw [bytes, ofBytes_bytesOfWord (by simp only at *; omega), Int.toNat_of_nonneg h0]

theorem shown_of_clear (h : w.decode = some .clear) : w.shown = ⟨0x00E0⟩ := by
  rw [shown, h]

theorem shown_of_ret (h : w.decode = some .ret) : w.shown = ⟨0x00EE⟩ := by
  rw [shown, h]

theorem shown_of_ne (hc : w.decode ≠ some .clear) (hr : w.decode ≠ some .ret) : w.shown = w := by
  rw [shown]
  split
  · next h => exact absurd h hc
  · next h => exact absurd h hr
  · rfl

/-- Only words of family `0` are not shown as they are. -/
theorem shown_of_family (h : w.decode = some i) (h0 : i.family ≠ 0) : w.shown = w := by
  refine shown_of_ne ?_ ?_
  · rintro hc
    obtain rfl := Option.some.inj (h.symm.trans hc)
    exact h0 rfl
  · rintro hr
    obtain rfl := Option.some.inj (h.symm.trans hr)
    exact h0 rfl

theorem decode_shown (w : Word) : w.shown.decode = w.decode := by
  by_cases hc : w.decode = some .clear
  · rw [shown_of_clear hc, hc]
    rfl
  · by_cases hr : w.decode = some .ret
    · rw [shown_of_ret hr, hr]
      rfl
    · rw [shown_of_ne hc hr]

theorem shown_isShort (h : w.IsShort) : w.shown.IsShort := by
  by_cases hc : w.decode = some .clear
  · rw [shown_of_clear hc]
    exact ⟨by decide, by decide⟩
  · by_cases hr : w.decode = some .ret
    · rw [shown_of_ret hr]
      exact ⟨by decide, by decide⟩
    · rwa [shown_of_ne hc hr]

/-- A word stands for another one if the machine cannot tell them apart, and if it is the same
number where the number is all there is to tell. -/
structure StandsFor (w' w : Word) : Prop where
  decode_eq : w'.decode = w.decode
  eq_of_unknown : w.decode = none → w' = w
  execute_eq : ∀ {κ β δ ρ : Type} [KeyInput κ] [Display δ] [ByteSource ρ] (m : Machine κ β δ ρ),
    Machine.execute w' m = Machine.execute w m

theorem shown_standsFor (w : Word) : w.shown.StandsFor w where
  decode_eq := decode_shown w
  eq_of_unknown := fun h => shown_of_ne (by simp [h]) (by simp [h])
  execute_eq := by
    intro κ β δ ρ _ _ _ m
    by_cases hc : w.decode = some .clear
    · rw [Machine.execute_of hc rfl, Machine.execute_of ((decode_shown w).trans hc) rfl]
    · by_cases hr : w.decode = some .ret
      · rw [Machine.execute_of hr rfl, Machine.execute_of ((decode_shown w).trans hr) rfl]
      · rw [shown_of_ne hc hr]

end Word

/-! ### Operands that are written and read -/

variable {w : Word} {i : Instruction} {slot : Slot}

theorem Assembly.upper_of_mem_names : ∀ text ∈ names, upper text = text ∧ Solid text := by decide

theorem Assembly.solid_of_isAlphanum {text : List Char} (hne : text ≠ [])
    (h : ∀ c ∈ text, c.isAlphanum = true) : Solid text where
  ne_nil := hne
  whole := by
    intro c hc
    refine ⟨isBlank_of_isAlphanum (h c hc), ?_, ?_, ?_⟩
    all_goals
      rintro rfl
      exact absurd (h _ hc) (by decide)

/-- A number that is written in base sixteen. -/
theorem Assembly.toList_hex (width : Nat) (n : Int) :
    ("0x" ++ hex width n).toList = '0' :: 'x' :: hexChars hexDigit width n := by
  simp [hex]

theorem Assembly.solid_hex (width n : Nat) : Solid ("0x" ++ hex width n).toList := by
  rw [toList_hex]
  refine solid_of_isAlphanum (List.cons_ne_nil _ _) fun c hc => ?_
  rcases List.mem_cons.mp hc with rfl | hc
  · decide
  · rcases List.mem_cons.mp hc with rfl | hc
    · decide
    · exact isAlphanum_of_mem_hexChars hc

theorem Slot.solid_text (h : slot ∈ i.slots) (w : Word) : Solid (slot.text w).toList := by
  have hnibble : ∀ n < 16, Solid (toString n).toList := by decide
  cases slot with
  | x => exact (upper_of_mem_names _ (registerName_mem_names _ w.x_lt)).2
  | y => exact (upper_of_mem_names _ (registerName_mem_names _ w.y_lt)).2
  | byte => exact solid_hex 2 w.nn
  | nibble => exact hnibble w.n w.n_lt
  | address => exact solid_hex 3 w.nnn
  | name text => exact (upper_of_mem_names _ (name_mem_names h)).2

/-- What a word has in a slot is read as what it has there, when there are no labels. -/
theorem Slot.reads_text (h : slot ∈ i.slots) (w : Word) : slot.Reads [] w (slot.text w).toList := by
  cases slot with
  | x => exact register?_registerName w.x w.x_lt
  | y => exact register?_registerName w.y w.y_lt
  | byte =>
    rw [text, toList_hex]
    exact numeral?_hex 2 w.nn
  | nibble => exact numeral?_toString w.n w.n_lt
  | address =>
    rw [text, toList_hex]
    exact numeral?_hex 3 w.nnn
  | name text => exact (upper_of_mem_names _ (name_mem_names h)).1

/-- The operands that a word is written with spell what is shown of it. -/
theorem Spells.of_text (hs : w.IsShort) (hi : w.decode = some i) :
    Spells [] i ((i.slots.map (·.text w)).map String.toList) w.shown where
  short := Word.shown_isShort hs
  decode := (Word.decode_shown w).trans hi
  plain := by
    intro h0
    cases i
    case clear =>
      rw [Word.shown_of_clear hi]
      rfl
    case ret =>
      rw [Word.shown_of_ret hi]
      rfl
    all_goals cases h0
  reads := by
    by_cases h0 : i.family = 0
    · -- nothing is written, so nothing has to be read
      cases i
      case clear | ret => exact .nil
      all_goals cases h0
    · rw [Word.shown_of_family hi h0, List.map_map, List.forall₂_map_right_iff,
        List.forall₂_same]
      exact fun slot hslot => Slot.reads_text hslot w

/-! ### Words that are written and read -/

/-- No instruction has more or fewer operands than its operation takes. -/
theorem Instruction.admits_slots (i : Instruction) :
    ∃ arity, i.operation.arity = some arity ∧ arity.admits i.slots.length = true := by
  cases i <;> exact ⟨_, rfl, by decide⟩

/-- The line of a word comes to the word that is shown. -/
theorem mnemonic_emits (hs : w.IsShort) : Emits w.mnemonic w.shown.bytes := by
  cases hd : w.decode with
  | some i =>
    rw [Word.mnemonic_eq hd]
    refine .of_sentence i.operation ?_ ?_
    · exact List.forall_mem_map.mpr fun slot hslot => Slot.solid_text hslot w
    · obtain ⟨arity, ha, hc⟩ := i.admits_slots
      refine (encode_eq_ok_iff rfl ha).mpr ⟨by simpa using hc, _, ?_, rfl⟩
      exact instructionWord_of_spells (Spells.of_text hs hd)
  | none =>
    obtain ⟨v, rfl, hlt⟩ := hs.exists_natCast
    rw [(Word.shown_standsFor _).eq_of_unknown hd, Word.bytes, Int.toNat_natCast]
    have hline : (⟨v⟩ : Word).mnemonic = sentence Operation.dw.name ["0x" ++ hex 4 v] := by
      rw [Word.mnemonic, hd]
      rfl
    have hnumber : number .word ("0x" ++ hex 4 v).toList = .ok v := by
      rw [toList_hex]
      exact number_eq_ok_iff.mpr ⟨numeral?_hex 4 v, Nat.le_of_lt_succ hlt⟩
    rw [hline]
    refine .of_sentence .dw (List.forall_mem_singleton.mpr (solid_hex 4 v)) ?_
    refine (encode_dw rfl).mpr ⟨[v], ?_, by simp⟩
    rw [List.map_cons, List.mapM_cons, hnumber]
    rfl

/-! ### Programs that are written and read -/

/-- The words of a program. A last odd byte is none. -/
def wordsOf : List UInt8 → List Word
  | b :: c :: rest => Word.ofBytes [b, c] :: wordsOf rest
  | _ => []

theorem wordsOf_bytes_append (hs : w.IsShort) (bytes : List UInt8) :
    wordsOf (w.bytes ++ bytes) = w :: wordsOf bytes :=
  congrArg (· :: wordsOf bytes) (Word.ofBytes_bytes hs)

variable {ws : List Word}

theorem wordsOf_flatten (hs : ∀ w ∈ ws, w.IsShort) :
    wordsOf (ws.map fun w => w.shown.bytes).flatten = ws.map Word.shown := by
  induction ws with
  | nil => rfl
  | cons w ws ih =>
    rw [List.forall_mem_cons] at hs
    rw [List.map_cons, List.flatten_cons, wordsOf_bytes_append (Word.shown_isShort hs.1), ih hs.2]
    rfl

/-- The assembly text of a program. -/
def disassembled (ws : List Word) : String := "\n".intercalate (ws.map Word.mnemonic)

theorem assemble_disassembled (hs : ∀ w ∈ ws, w.IsShort) :
    assemble (disassembled ws) =
      if maxProgramSize < 2 * ws.length then
        .error ⟨ws.length, .programTooLong (2 * ws.length) maxProgramSize⟩
      else .ok (ws.map fun w => w.shown.bytes).flatten := by
  have hemits : List.Forall₂ Emits (ws.map Word.mnemonic) (ws.map fun w => w.shown.bytes) := by
    rw [List.forall₂_map_left_iff, List.forall₂_map_right_iff, List.forall₂_same]
    exact fun w hw => mnemonic_emits (hs w hw)
  have hlength : (ws.map fun w => w.shown.bytes).flatten.length = 2 * ws.length := by
    simp [List.length_flatten, List.map_map, Function.comp_def, Word.bytes, Nat.mul_comm]
  rw [disassembled, assemble_lines hemits, hlength, List.length_map]

/-- Disassembly preserves meaning: a program that is disassembled and assembled again has as many
words as before, and each of them stands for the one at its place. Only the length of a program can
be refused, on the line of its last word. -/
theorem reassembled_stands_for {ws : List Word} (hs : ∀ w ∈ ws, w.IsShort) :
    (ws.length ≤ 1792 → ∃ bytes, assemble (disassembled ws) = .ok bytes ∧
      bytes.length = 2 * ws.length ∧ List.Forall₂ Word.StandsFor (wordsOf bytes) ws) ∧
    (1792 < ws.length → ∃ refusal, assemble (disassembled ws) = .error refusal ∧
      refusal.line = ws.length ∧ refusal.message =
        s!"line {ws.length}: " ++ s!"program is {2 * ws.length} bytes, maximum is {3584}") := by
  rw [assemble_disassembled hs]
  constructor
  · intro hl
    have hfit : ¬maxProgramSize < 2 * ws.length := by
      rw [maxProgramSize, memorySize, programStart]
      omega
    rw [if_neg hfit]
    refine ⟨_, rfl, ?_, ?_⟩
    · simp [List.length_flatten, List.map_map, Function.comp_def, Word.bytes, Nat.mul_comm]
    · rw [wordsOf_flatten hs, List.forall₂_map_left_iff, List.forall₂_same]
      exact fun w _ => Word.shown_standsFor w
  · intro hl
    have hlong : maxProgramSize < 2 * ws.length := by
      rw [maxProgramSize, memorySize, programStart]
      omega
    rw [if_pos hlong]
    exact ⟨⟨ws.length, .programTooLong (2 * ws.length) maxProgramSize⟩, rfl, rfl, rfl⟩

/-- Words that come back as others, and programs that do not come back at all. -/
theorem reassembled_stands_for_padded_clear :
    (∃ bytes, assemble (disassembled [⟨0x01E0⟩, ⟨0x9471⟩]) = .ok bytes ∧ bytes.length = 4 ∧
      List.Forall₂ Word.StandsFor (wordsOf bytes) [⟨0x01E0⟩, ⟨0x9471⟩]) ∧
    ∃ refusal, assemble (disassembled (List.replicate 1793 ⟨0x01E0⟩)) = .error refusal ∧
      refusal.line = 1793 := by
  have hshort : ∀ w ∈ List.replicate 1793 (⟨0x01E0⟩ : Word), w.IsShort := by
    intro w hw
    rw [List.eq_of_mem_replicate hw]
    exact ⟨by decide, by decide⟩
  obtain ⟨refusal, hr, hline, -⟩ :=
    (reassembled_stands_for hshort).2 (by rw [List.length_replicate]; decide)
  rw [List.length_replicate] at hline
  exact ⟨(reassembled_stands_for (by simp [Word.IsShort])).1 (by decide), refusal, hr, hline⟩

end Chip8
