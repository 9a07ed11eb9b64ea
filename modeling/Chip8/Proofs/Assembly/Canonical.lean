import Chip8.Proofs.Assembly.Passes

/-!
# Canonical statements

A statement can be written in many ways: in small letters, with numbers in base two, with a sign,
with a label for an address. Its canonical form is one text for all of them, and it can be given
from the statement alone, without any word: capitals for names, and every number in the style of its
place. There are three styles. An address has three digits in base sixteen, a byte has two, and the
height of a sprite stands in base ten.

A name is a name in every place but that of an address. There a label may have any name, `V0` and
`F` too, and it wins.

So the canonical form knows nothing about encodings, and what is proved here is a fact about them:
the assembly text of the word that is emitted is the canonical form of what was written.

## Main results

* `canonicalOperand?_of_reads` — one operand and one slot
* `encode_canonical` — one statement
* `encoded_as_written` — every statement of a source text that is assembled
-/

namespace Chip8

open Assembly Text

namespace Assembly

/-- How an operand is written. -/
inductive Style where
  /-- A name, or a byte. -/
  | plain
  | address
  /-- A number in base ten. -/
  | decimal
  deriving DecidableEq, Repr

/-- The styles of the operands of a statement. -/
def styles : Operation → List (List Char) → List Style
  | .jp, [_] | .call, [_] => [.address]
  | .jp, [_, _] => [.plain, .address]
  | .ld, [t, _] => [.plain, if upper t = ['I'] then .address else .plain]
  | .drw, [_, _, _] => [.plain, .plain, .decimal]
  | _, operands => operands.map fun _ => .plain

/-- The canonical form of an operand. -/
def canonicalOperand? (labels : Labels) (operand : List Char) : Style → Option String
  | .plain =>
    if upper operand ∈ names then some (String.ofList (upper operand))
    else (numeral? operand).map fun n => "0x" ++ hex 2 n
  | .address => (addressValue? labels operand).map fun a => "0x" ++ hex 3 a
  | .decimal => (numeral? operand).map toString

/-- The canonical form of a statement: its operation in capitals, and its operands in their styles
once the second operand of a shift is there. -/
def Statement.canonical? (labels : Labels) (s : Statement) : Option String := do
  let operation ← Operation.ofName? s.operation
  let operands := completed operation s.operands
  let texts ← (operands.zip (styles operation operands)).mapM fun (operand, style) =>
    canonicalOperand? labels operand style
  return sentence operation.name texts

end Assembly

/-- The style of a slot. -/
def Slot.style : Slot → Style
  | address => .address
  | nibble => .decimal
  | x | y | byte | name _ => .plain

variable {labels : Labels} {w : Word}

/-! ### Operands -/

theorem Assembly.canonicalOperand?_of_name {operand : List Char} {text : String}
    (hu : upper operand = text.toList) (hn : text.toList ∈ names) :
    canonicalOperand? labels operand .plain = some text := by
  rw [canonicalOperand?, hu, if_pos hn, String.ofList_toList]

/-- An operand that says what a word has in a slot has the text of that slot for its canonical
form. -/
theorem canonicalOperand?_of_reads {i : Instruction} {slot : Slot} {operand : List Char}
    (hslot : slot ∈ i.slots) (h : slot.Reads labels w operand) :
    canonicalOperand? labels operand slot.style = some (slot.text w) := by
  cases slot with
  | x =>
    obtain ⟨hr, hu⟩ := register?_eq_some_iff.mp h
    exact canonicalOperand?_of_name hu (registerName_mem_names _ hr)
  | y =>
    obtain ⟨hr, hu⟩ := register?_eq_some_iff.mp h
    exact canonicalOperand?_of_name hu (registerName_mem_names _ hr)
  | name text => exact canonicalOperand?_of_name h (name_mem_names hslot)
  | byte =>
    have hname : upper operand ∉ names := fun hm => by
      rw [Slot.Reads, numeral?_eq_none_of_upper hm] at h
      cases h
    change (if upper operand ∈ names then _ else _) = _
    rw [if_neg hname, show numeral? operand = _ from h]
    rfl
  | nibble =>
    change (numeral? operand).map _ = _
    rw [show numeral? operand = _ from h]
    rfl
  | address =>
    change (addressValue? labels operand).map _ = _
    rw [show addressValue? labels operand = _ from h]
    rfl

/-! ### Statements -/

/-- What is spelled as an instruction has the styles of its slots. -/
theorem Spells.styles_eq {i : Instruction} {operands : List (List Char)}
    (h : Spells labels i operands w) : styles i.operation operands = i.slots.map Slot.style := by
  have hr := h.reads
  cases i
  case clear | ret =>
    cases hr
    rfl
  case jump | call | skipIfKey | skipUnlessKey =>
    obtain _ | ⟨-, _ | _⟩ := hr
    rfl
  case draw =>
    obtain _ | ⟨-, _ | ⟨-, _ | ⟨-, _ | _⟩⟩⟩ := hr
    rfl
  -- the first operand of a load decides over the second
  case loadIndex =>
    obtain _ | ⟨hi, _ | ⟨-, _ | _⟩⟩ := hr
    rw [Instruction.operation, styles, if_pos (show upper _ = ['I'] from hi)]
    rfl
  case loadByte | copy | readDelay | waitKey | load =>
    obtain _ | ⟨hx, _ | ⟨-, _ | _⟩⟩ := hr
    rw [Instruction.operation, styles, if_neg (special?_of_register hx).1]
    rfl
  case setDelay | setSound | glyph | decimal | store =>
    obtain _ | ⟨ht, _ | ⟨-, _ | _⟩⟩ := hr
    rw [Instruction.operation, styles, show upper _ = _ from ht, if_neg (by decide)]
    rfl
  all_goals
    obtain _ | ⟨-, _ | ⟨-, _ | _⟩⟩ := hr
    rfl

theorem mapM_canonicalOperand? {slots : List Slot} {operands : List (List Char)}
    (h : List.Forall₂ (fun slot operand =>
      canonicalOperand? labels operand slot.style = some (slot.text w)) slots operands) :
    ((operands.zip (slots.map Slot.style)).mapM fun (operand, style) =>
      canonicalOperand? labels operand style) = some (slots.map (·.text w)) := by
  induction h with
  | nil => rfl
  | cons hslot _ ih => simp [List.mapM_cons, hslot, ih]

/-- A statement that is not data is encoded as a word of an instruction, and the assembly text of
that word is the canonical form of the statement. -/
theorem encode_canonical {s : Statement} {bytes : List UInt8} (h : encode labels s = .ok bytes)
    (hdb : s.operation ≠ Operation.db.name.toList) (hdw : s.operation ≠ Operation.dw.name.toList) :
    ∃ hi lo i, bytes = [hi, lo] ∧ (Word.ofBytes [hi, lo]).decode = some i ∧
      s.canonical? labels = some (Word.ofBytes [hi, lo]).mnemonic := by
  obtain ⟨op, arity, v, hop, ha, hc, hv, rfl⟩ := exists_instructionWord h hdb hdw
  obtain ⟨i, hi, hs⟩ := exists_spells ha hc hv
  have hlt : v < 0x10000 := by
    have := hs.short.2
    simp only at this
    omega
  have hw : Word.ofBytes [UInt8.ofNat (v / 0x100), UInt8.ofNat v] = ⟨v⟩ := ofBytes_bytesOfWord hlt
  refine ⟨_, _, i, rfl, by rw [hw]; exact hs.decode, ?_⟩
  have htexts : List.Forall₂ (fun slot operand =>
      canonicalOperand? labels operand slot.style = some (slot.text ⟨v⟩)) i.slots
        (completed op s.operands) :=
    ((List.forall₂_and_left _ _).mpr ⟨fun _ hslot => hslot, hs.reads⟩).imp
      fun _ _ hslot => canonicalOperand?_of_reads hslot.1 hslot.2
  rw [hw, Word.mnemonic_eq hs.decode, Statement.canonical?, hop, ofName?_name, hi]
  have hstyles := hs.styles_eq
  rw [hi] at hstyles
  simp only [Option.bind_eq_bind, Option.bind_some, hstyles, mapM_canonicalOperand? htexts]
  rfl

/-- The assembler encodes what was written: where a source text that is assembled has a statement
other than data, the program has a word of an instruction, and the assembly text of that word is the
canonical form of the statement. -/
theorem encoded_as_written {source : String} {program : List UInt8}
    (h : assemble source = .ok program) :
    ∃ its labels, Passes source.toList its labels program ∧
      ∀ pre line s post, its = pre ++ ⟨line, .statement s⟩ :: post →
        s.operation ≠ "DB".toList → s.operation ≠ "DW".toList →
        ∃ before hi lo after i, encodeItems labels pre = .ok before ∧
          program = before ++ hi :: lo :: after ∧ encode labels s = .ok [hi, lo] ∧
          (Word.ofBytes [hi, lo]).decode = some i ∧
          s.canonical? labels = some (Word.ofBytes [hi, lo]).mnemonic := by
  obtain ⟨its, labels, hp⟩ := assembleChars_eq_ok_iff.mp h
  refine ⟨its, labels, hp, ?_⟩
  intro pre line s post hits hdb hdw
  obtain ⟨before, word, after, hbefore, hword, -, hprogram⟩ := hp.cut hits
  have hs := encodeItem_statement_eq_ok_iff.mp hword
  obtain ⟨hi, lo, i, rfl, hdecode, htext⟩ := encode_canonical hs hdb hdw
  exact ⟨before, hi, lo, after, i, hbefore, hprogram, hs, hdecode, htext⟩

/-- A load of the address of a label that is named like a register, in small letters. -/
theorem encoded_as_written_label_named_register :
    ∃ labels i, ∃ before after : List UInt8,
      [0x83, 0x36, 0xA2, 0x02] = before ++ 0xA2 :: 0x02 :: after ∧
      (Word.ofBytes [0xA2, 0x02]).decode = some i ∧
      (⟨"LD".toList, ["i".toList, "v3".toList]⟩ : Statement).canonical? labels =
        some "LD I, 0x202" := by
  have hassemble : assemble "shr v3\nV3: ld i, v3" = .ok [0x83, 0x36, 0xA2, 0x02] := by
    decide +kernel
  obtain ⟨its, labels, hp, hs⟩ := encoded_as_written hassemble
  have hits : items "shr v3\nV3: ld i, v3".toList = .ok
      ([⟨1, .statement ⟨"SHR".toList, ["v3".toList]⟩⟩, ⟨2, .label "V3".toList⟩] ++
        ⟨2, .statement ⟨"LD".toList, ["i".toList, "v3".toList]⟩⟩ :: []) := by decide +kernel
  have hlabels : collectLabels programStart []
      [⟨1, .statement ⟨"SHR".toList, ["v3".toList]⟩⟩, ⟨2, .label "V3".toList⟩,
        ⟨2, .statement ⟨"LD".toList, ["i".toList, "v3".toList]⟩⟩] =
      .ok [("V3".toList, 0x202)] := by decide +kernel
  obtain rfl := Except.ok.inj (hp.items_eq.symm.trans hits)
  obtain rfl := Except.ok.inj (hp.labels_eq.symm.trans hlabels)
  obtain ⟨before, hi, lo, after, i, -, hprogram, hword, hdecode, htext⟩ :=
    hs _ 2 _ [] rfl (by decide) (by decide)
  have hbytes : encode [("V3".toList, 0x202)] ⟨"LD".toList, ["i".toList, "v3".toList]⟩ =
      .ok [0xA2, 0x02] := by decide +kernel
  obtain ⟨rfl, rfl⟩ : hi = 0xA2 ∧ lo = 0x02 := by
    simpa using Except.ok.inj (hword.symm.trans hbytes)
  exact ⟨_, i, before, after, hprogram, hdecode, htext.trans (by decide +kernel)⟩

end Chip8
