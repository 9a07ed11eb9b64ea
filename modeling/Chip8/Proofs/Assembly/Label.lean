import Chip8.Proofs.Assembly.Passes
import Chip8.Proofs.Machine.Reachable

/-!
# Where labels land

A label is an address that is handed out before a single byte is there. That it is the right one can
only be said of what comes out in the end: the program falls into the bytes before the label and the
bytes after it, and the address is that of the cut between them, once the program is in memory.

An operand that names the label is a use of it wherever an address is read, and only there.
`target?` is that operand; in a statement like `LD V1, B` or `SE V0, 5` no label is looked up.

## Main results

* `encode_target` — the word of a use of an address
* `loadProgram_holds` — a program that fits, in memory
* `labels_land` — every label of a source text that is assembled lands, with all its uses
-/

namespace Chip8

open Assembly Text

/-- The operand of a statement that is read as an address, if it has one. -/
def Assembly.Statement.target? (s : Statement) : Option (List Char) :=
  match Operation.ofName? s.operation, s.operands with
  | some .jp, [a] => some a
  | some .jp, [_, a] => some a
  | some .call, [a] => some a
  | some .ld, [t, a] => if upper t = ['I'] then some a else none
  | _, _ => none

variable {labels : Labels}

/-- The address is all that the word of a use has after its first digit. -/
theorem nnn_bytesOfWord_wordA {f a : Nat} (hf : f < 16) (ha : a ≤ 0xFFF) :
    (Word.ofBytes (bytesOfWord (wordA f a))).nnn = a := by
  have hlt : wordA f a < 0x10000 := by
    rw [wordA]
    omega
  rw [ofBytes_bytesOfWord hlt]
  exact (Word.fields_wordA hf (Nat.lt_succ_of_le ha)).2.2

/-- A statement whose word is put together from an address. -/
theorem encode_address {s : Statement} {bytes : List UInt8} {operand : List Char} {op : Operation}
    {arity : Arity} {f : Nat} (hop : Operation.ofName? s.operation = some op)
    (ha : op.arity = some arity) (hf : f < 16)
    (hword : instructionWord labels op s.operands = do return wordA f (← address labels operand))
    (h : encode labels s = .ok bytes) :
    ∃ hi lo a, bytes = [hi, lo] ∧ address labels operand = .ok a ∧
      (Word.ofBytes [hi, lo]).nnn = a := by
  obtain ⟨-, v, hv, rfl⟩ := (encode_eq_ok_iff (ofName?_eq_some_iff.mp hop) ha).mp h
  rw [hword] at hv
  obtain ⟨a, haddress, hv⟩ := bind_eq_ok_iff.mp hv
  obtain rfl := pure_eq_ok_iff.mp hv
  exact ⟨_, _, a, rfl, haddress, nnn_bytesOfWord_wordA hf (address_eq_ok_iff.mp haddress).2⟩

/-- The word of a use has the address of the operand that is read as one. -/
theorem encode_target {s : Statement} {bytes : List UInt8} {operand : List Char}
    (h : encode labels s = .ok bytes) (ht : s.target? = some operand) :
    ∃ hi lo a, bytes = [hi, lo] ∧ address labels operand = .ok a ∧
      (Word.ofBytes [hi, lo]).nnn = a := by
  unfold Statement.target? at ht
  split at ht
  · next a hop hops =>
    obtain rfl := Option.some.inj ht
    exact encode_address (f := 0x1) hop rfl (by decide) (by rw [hops]; rfl) h
  · next t a hop hops =>
    obtain rfl := Option.some.inj ht
    by_cases hv0 : upper t = ['V', '0']
    · exact encode_address (f := 0xB) hop rfl (by decide) (by rw [hops]; exact if_pos hv0) h
    · -- no other register is accepted
      obtain ⟨-, v, hv, -⟩ := (encode_eq_ok_iff (ofName?_eq_some_iff.mp hop) rfl).mp h
      rw [hops] at hv
      cases (if_neg hv0).symm.trans hv
  · next a hop hops =>
    obtain rfl := Option.some.inj ht
    exact encode_address (f := 0x2) hop rfl (by decide) (by rw [hops]; rfl) h
  · next t a hop hops =>
    split at ht
    · next hi =>
      obtain rfl := Option.some.inj ht
      exact encode_address (f := 0xA) hop rfl (by decide) (by rw [hops]; exact if_pos hi) h
    · cases ht
  · cases ht

/-- An operand that names a label stands for the address of the label. -/
theorem address_of_label {name operand : List Char} {k a : Nat}
    (hl : labels.lookup (upper name) = some k) (hn : upper operand = upper name)
    (ha : address labels operand = .ok a) : a = k := by
  have hvalue : addressValue? labels operand = some (k : Int) := by
    rw [addressValue?, hn, hl]
  rw [(address_eq_ok_iff.mp ha).1] at hvalue
  exact Int.ofNat.inj (Option.some.inj hvalue)

/-! ### Programs in memory -/

namespace Machine

variable {κ β δ ρ : Type}

/-- What is in memory once a program is loaded: the program, and else what was there before. -/
structure Holds (program : List UInt8) (old new : Array UInt8) : Prop where
  size_eq : new.size = old.size
  loaded : ∀ (k : Nat) (h : k < program.length), new[programStart + k]? = some program[k]
  others : ∀ a, a < programStart ∨ programStart + program.length ≤ a → new[a]? = old[a]?

/-- A program that fits goes into memory as a whole, and nothing else changes. -/
theorem loadProgram_holds {program : List UInt8} (hfit : program.length ≤ maxProgramSize)
    {m : Machine κ β δ ρ} (hm : m.cpu.memory.size = memorySize) :
    ∃ memory, loadProgram program m = .ok () { m with cpu := { m.cpu with memory := memory } } ∧
      Holds program m.cpu.memory memory := by
  have hin : programStart + program.length ≤ m.cpu.memory.size := by
    have := Processor.maxProgramSize_lt_iff program.length
    omega
  refine ⟨Processor.overwrite m.cpu.memory programStart program, ?_, ?_, ?_, ?_⟩
  · rw [loadProgram_eq, if_neg (by omega)]
    rfl
  · exact Processor.size_overwrite hin
  · intro k hk
    rw [Processor.overwrite_eq_mapIdx hin, Array.getElem?_mapIdx,
      Array.getElem?_eq_getElem (by omega : programStart + k < m.cpu.memory.size), Option.map_some,
      if_pos (Nat.le_add_right programStart k), Nat.add_sub_cancel_left,
      List.getElem?_eq_getElem hk, Option.getD_some]
  · intro a ha
    rw [Processor.overwrite_eq_mapIdx hin, Array.getElem?_mapIdx]
    cases m.cpu.memory[a]? with
    | none => rfl
    | some old =>
      rw [Option.map_some]
      split
      · rw [List.getElem?_eq_none (by omega), Option.getD_none]
      · rfl

/-- The first byte of a program that fits is at `programStart`. -/
theorem loadProgram_ok {program : List UInt8} (hfit : program.length ≤ maxProgramSize)
    {m : Machine κ β δ ρ} (hm : m.cpu.memory.size = memorySize) :
    ∃ m', loadProgram program m = .ok () m' ∧
      ∀ (k : Nat) (h : k < program.length), m'.cpu.memory[programStart + k]? = some program[k] := by
  obtain ⟨memory, hload, hholds⟩ := loadProgram_holds hfit hm
  exact ⟨_, hload, hholds.loaded⟩

end Machine

/-! ### Labels -/

/-- A label that is defined between the items `pre` and `post` lands between the bytes `before` and
`after`. -/
structure Lands (its : List Located) (labels : Labels) (program : List UInt8) (name : List Char)
    (pre post : List Located) (before after : List UInt8) : Prop where
  /-- What the statements before the label emit. -/
  before_eq : encodeItems labels pre = .ok before
  /-- What the statements after it emit. -/
  after_eq : encodeItems labels post = .ok after
  program_eq : program = before ++ after
  /-- Every operand that is read as an address and names the label, before it or after it and in
  any case, is the address behind the bytes `before` in the word that is emitted for it. -/
  used : ∀ pre' line s post' operand, its = pre' ++ ⟨line, .statement s⟩ :: post' →
    s.target? = some operand → upper operand = upper name →
    ∃ emitted hi lo rest, encodeItems labels pre' = .ok emitted ∧
      encode labels s = .ok [hi, lo] ∧ program = emitted ++ hi :: lo :: rest ∧
      (Word.ofBytes [hi, lo]).nnn = programStart + before.length
  /-- On every machine that the program is loaded into, the first byte after the label is there. -/
  loaded : ∀ {κ β δ ρ : Type} (m : Machine κ β δ ρ), m.cpu.memory.size = memorySize →
    ∃ m', Machine.loadProgram program m = .ok () m' ∧
      ∀ b ∈ after.head?, m'.cpu.memory[programStart + before.length]? = some b

theorem Assembly.Passes.lands {source : List Char} {its pre post : List Located}
    {program : List UInt8} {line : Nat} {name : List Char}
    (h : Passes source its labels program) (hits : its = pre ++ ⟨line, .label name⟩ :: post) :
    ∃ before after, Lands its labels program name pre post before after := by
  obtain ⟨before, emitted, after, hbefore, hemitted, hafter, hprogram⟩ := h.cut hits
  -- the label itself emits nothing
  obtain rfl := Except.ok.inj hemitted
  rw [List.nil_append] at hprogram
  have hlabel : labels.lookup (upper name) = some (programStart + before.length) := by
    have hl := h.labels_eq
    rw [hits] at hl
    rw [lookup_collectLabels hl, length_encodeItems hbefore]
  refine ⟨before, after, hbefore, hafter, hprogram, ?_, ?_⟩
  · intro pre' line' s post' operand huse ht hn
    obtain ⟨emitted, word, rest, hemitted, hword, -, hsum⟩ := h.cut huse
    have hs := encodeItem_statement_eq_ok_iff.mp hword
    obtain ⟨hi, lo, a, rfl, ha, hnnn⟩ := encode_target hs ht
    exact ⟨emitted, hi, lo, rest, hemitted, hs, hsum, hnnn.trans (address_of_label hlabel hn ha)⟩
  · intro κ β δ ρ m hm
    obtain ⟨m', hload, hmemory⟩ := Machine.loadProgram_ok h.fits hm
    refine ⟨m', hload, ?_⟩
    intro b hb
    obtain ⟨rest, rfl⟩ := List.head?_eq_some_iff.mp hb
    have hlt : before.length < program.length := by
      rw [hprogram, List.length_append, List.length_cons]
      omega
    rw [hmemory before.length hlt]
    simp [hprogram]

/-- Labels point where their code lands: every label definition of a source text that is assembled
cuts the program at its address, and every statement takes the bytes that the first pass counted for
it. -/
theorem labels_land {source : String} {program : List UInt8}
    (h : assemble source = .ok program) :
    ∃ its labels, Passes source.toList its labels program ∧
      (∀ i ∈ its, ∃ bytes, encodeItem labels i = .ok bytes ∧ bytes.length = i.item.size) ∧
      ∀ pre line name post, its = pre ++ ⟨line, .label name⟩ :: post →
        ∃ before after, Lands its labels program name pre post before after := by
  obtain ⟨its, labels, hp⟩ := assembleChars_eq_ok_iff.mp h
  refine ⟨its, labels, hp, ?_, fun pre line name post hits => hp.lands hits⟩
  intro i hi
  obtain ⟨pre, post, hits⟩ := List.append_of_mem hi
  obtain ⟨-, bytes, -, -, hbytes, -, -⟩ := hp.cut hits
  exact ⟨bytes, hbytes, length_encodeItem hbytes⟩

/-- A label behind a single byte of data lands on an odd address, for the jump before it and the
load after it. -/
theorem labels_land_behind_odd_data :
    ∃ its labels before after,
      Lands its labels [0x12, 0x03, 0x01, 0xA2, 0x03] "next".toList
        [⟨1, .statement ⟨"JP".toList, ["Next".toList]⟩⟩,
          ⟨2, .statement ⟨"DB".toList, ["1".toList]⟩⟩]
        [⟨3, .statement ⟨"LD".toList, ["I".toList, "NEXT".toList]⟩⟩] before after := by
  have hassemble : assemble "JP Next\nDB 1\nnext: ld I, NEXT" =
      .ok [0x12, 0x03, 0x01, 0xA2, 0x03] := by decide +kernel
  obtain ⟨its, labels, hp, -, hl⟩ := labels_land hassemble
  refine ⟨its, labels, hl _ 3 _ _ ?_⟩
  have hits : items "JP Next\nDB 1\nnext: ld I, NEXT".toList = .ok
      ([⟨1, .statement ⟨"JP".toList, ["Next".toList]⟩⟩,
        ⟨2, .statement ⟨"DB".toList, ["1".toList]⟩⟩] ++ ⟨3, .label "next".toList⟩ ::
        [⟨3, .statement ⟨"LD".toList, ["I".toList, "NEXT".toList]⟩⟩]) := by decide +kernel
  exact Except.ok.inj (hp.items_eq.symm.trans hits)

end Chip8
