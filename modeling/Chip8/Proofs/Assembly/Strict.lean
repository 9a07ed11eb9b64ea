import Mathlib.Data.List.DropRight
import Chip8.Proofs.Assembly.Label
import Chip8.Proofs.Assembly.Line

/-!
# Nothing else goes wrong

`assemble` gives a program or a refusal, but some of what it does is safe only because of checks
that were made before: operands are looked at by their place, numbers are put into bytes, and the
last line is asked for its number. Here is the assembler again with a mishap wherever such a step
has no result. `strictAssemble_eq` says that it never has one, for no source text at all.

A numeral that cannot be read is not among the mishaps. That is an answer of `numeral?`, and both of
its readers, `number` and `address`, have a refusal for it.

## Main definitions

* `Mishap` — the steps that could go wrong
* `strictAssemble` — the assembler that notices them

## Main results

* `strictAssemble_eq` — there is no mishap
* `isLineOf_of_assembleChars_eq_error` — the line of a refusal
* `assemble_total` — what assembling a source text comes to, and loading what it gives
-/

namespace Chip8

namespace Assembly

open Text

/-! ### The strict assembler -/

/-- What could go wrong in a step that has no answer of its own for it. -/
inductive Mishap where
  /-- A line is left without an operation. -/
  | noOperation
  /-- There is no operand in a place. -/
  | noOperand (place : Nat)
  /-- A number is too large for a byte. -/
  | byteOverflow (value : Nat)
  /-- A number is too large for a word. -/
  | wordOverflow (value : Nat)
  /-- There is no last line. -/
  | noLastLine
  deriving DecidableEq, Repr

/-- The operand in a place. -/
def operandAt (operands : List (List Char)) (place : Nat) : Except Mishap (List Char) :=
  match operands[place]? with
  | some operand => .ok operand
  | none => .error (.noOperand place)

def packByte (value : Nat) : Except Mishap UInt8 :=
  if value ≤ 0xFF then .ok (UInt8.ofNat value) else .error (.byteOverflow value)

def packWord (value : Nat) : Except Mishap (List UInt8) :=
  if value ≤ 0xFFFF then .ok (bytesOfWord value) else .error (.wordOverflow value)

/-- The places at which operands are looked at, out of a number of them. -/
def places : Operation → Nat → List Nat
  | .cls, _ | .ret, _ | .db, _ | .dw, _ => []
  | .call, _ | .skp, _ | .sknp, _ => [0]
  | .jp, n | .shr, n | .shl, n => if n = 2 then [0, 1] else [0]
  | .drw, _ => [0, 1, 2]
  | _, _ => [0, 1]

/-- The word of a statement. All operands that are looked at are fetched first. -/
def strictWord (labels : Labels) (op : Operation) (operands : List (List Char)) :
    Except (Mishap ⊕ Problem) Nat := do
  let fetched ← ((places op operands.length).mapM (operandAt operands)).mapError .inl
  (instructionWord labels op fetched).mapError .inr

/-- The bytes of a statement. -/
def strictEncode (labels : Labels) (s : Statement) : Except (Mishap ⊕ Problem) (List UInt8) :=
  match Operation.ofName? s.operation with
  | none => .error (.inr (.unknownOperation (String.ofList s.operation)))
  | some .db => do
    let values ← (s.operands.mapM (number .byte)).mapError .inr
    (values.mapM packByte).mapError .inl
  | some .dw => do
    let values ← (s.operands.mapM (number .word)).mapError .inr
    return (← (values.mapM packWord).mapError .inl).flatten
  | some op =>
    match op.arity with
    | some arity =>
      if arity.admits s.operands.length then do
        let value ← strictWord labels op s.operands
        (packWord value).mapError .inl
      else .error (.inr (.wrongCount op.name arity s.operands.length))
    | none => .ok []

/-- The bytes of one item. -/
def strictEncodeItem (labels : Labels) : Located → Except (Mishap ⊕ Refusal) (List UInt8)
  | ⟨_, .label _⟩ => .ok []
  | ⟨line, .statement s⟩ => (strictEncode labels s).mapError (Sum.map id (⟨line, ·⟩))

/-- The operation in what is left of a line behind its labels. If nothing is left, there is none. -/
def firstWord (rest : List Char) : Except Mishap (List Char) :=
  match rest.takeWhile (!isBlank ·) with
  | [] => if rest.isEmpty then .ok [] else .error .noOperation
  | word => .ok word

/-- The items of one line. -/
def strictItemsOfLine (number : Nat) (line : List Char) :
    Except (Mishap ⊕ Refusal) (List Located) := do
  let _ ← (firstWord (leadingLabels (pieces ':' (withoutComment line))).2).mapError .inl
  (itemsOfLine number line).mapError .inr

def strictItems (source : List Char) : Except (Mishap ⊕ Refusal) (List Located) := do
  let perLine ← ((pieces '\n' source).zipIdx 1).mapM
    fun (line, number) => strictItemsOfLine number line
  return perLine.flatten

def strictLastLine (items : List Located) : Except Mishap Nat :=
  match items.getLast? with
  | some i => .ok i.line
  | none => .error .noLastLine

/-- The bytes of a source text, given as its characters. -/
def strictAssembleChars (source : List Char) : Except (Mishap ⊕ Refusal) (List UInt8) := do
  let items ← strictItems source
  let labels ← (collectLabels programStart [] items).mapError .inr
  let bytes := (← items.mapM (strictEncodeItem labels)).flatten
  if maxProgramSize < bytes.length then do
    let line ← (strictLastLine items).mapError .inl
    .error (.inr ⟨line, .programTooLong bytes.length maxProgramSize⟩)
  else return bytes

/-! ### Steps that have a result -/

variable {labels : Labels} {op : Operation} {operands : List (List Char)} {arity : Arity}
  {source line : List Char} {its : List Located}

/-- All operands that are looked at are there, and they are all operands. -/
theorem fetched_eq (ha : op.arity = some arity) (hc : arity.admits operands.length = true) :
    (places op operands.length).mapM (operandAt operands) = .ok operands := by
  cases op with
  | db | dw => cases ha
  | cls | ret =>
    obtain rfl := Option.some.inj ha
    obtain rfl := List.length_eq_zero_iff.mp (beq_iff_eq.mp hc)
    rfl
  | call | skp | sknp =>
    obtain ⟨a, rfl⟩ := exists_eq_singleton ha hc
    rfl
  | jp | shr | shl =>
    rcases exists_eq_singleton_or_pair ha hc with ⟨a, rfl⟩ | ⟨a, b, rfl⟩ <;> rfl
  | drw =>
    obtain rfl := Option.some.inj ha
    obtain ⟨a, b, c, rfl⟩ := List.length_eq_three.mp (beq_iff_eq.mp hc)
    rfl
  | se | sne | ld | add | or | and | xor | sub | subn | rnd =>
    obtain ⟨a, b, rfl⟩ := exists_eq_pair ha hc
    rfl

/-- A word that was put together fits. -/
theorem packWord_of_instructionWord {v : Nat} (ha : op.arity = some arity)
    (hc : arity.admits operands.length = true) (hv : instructionWord labels op operands = .ok v) :
    packWord v = .ok (bytesOfWord v) := by
  obtain ⟨i, -, hspells⟩ := exists_spells ha hc hv
  have hshort := hspells.short
  exact if_pos (by simp only [Word.IsShort] at hshort; omega)

/-- Numbers that were read as bytes or words are not too large. -/
theorem le_limit_of_mem {unit : Unit} {values : List Nat} {v : Nat}
    (h : operands.mapM (number unit) = .ok values) (hv : v ∈ values) : v ≤ unit.limit := by
  obtain ⟨operand, -, hnumber⟩ := exists_of_mem_mapM h hv
  exact (number_eq_ok_iff.mp hnumber).2

/-! ### There is no mishap -/

/-- A statement with a number of operands of its own. -/
theorem strictWord_bind_packWord (ha : op.arity = some arity)
    (hc : arity.admits operands.length = true) :
    (do (packWord (← strictWord labels op operands)).mapError .inl :
      Except (Mishap ⊕ Problem) (List UInt8)) =
      (do return bytesOfWord (← instructionWord labels op operands) :
        Except Problem (List UInt8)).mapError .inr := by
  have hword :
      strictWord labels op operands = (instructionWord labels op operands).mapError .inr := by
    rw [strictWord, fetched_eq ha hc]
    rfl
  rw [hword]
  cases hv : instructionWord labels op operands with
  | error p => rfl
  | ok v =>
    change (packWord v).mapError Sum.inl = _
    rw [packWord_of_instructionWord ha hc hv]
    rfl

theorem strictEncode_eq (labels : Labels) (s : Statement) :
    strictEncode labels s = (encode labels s).mapError .inr := by
  rw [strictEncode, encode]
  cases Operation.ofName? s.operation with
  | none => rfl
  | some op =>
    have hword : ∀ arity, op.arity = some arity →
        (if arity.admits s.operands.length then
          (do (packWord (← strictWord labels op s.operands)).mapError .inl)
        else .error (.inr (.wrongCount op.name arity s.operands.length)) :
          Except (Mishap ⊕ Problem) (List UInt8)) =
        (if arity.admits s.operands.length then
          (do return bytesOfWord (← instructionWord labels op s.operands))
        else .error (.wrongCount op.name arity s.operands.length) :
          Except Problem (List UInt8)).mapError .inr := by
      intro arity ha
      split
      · next hc => exact strictWord_bind_packWord ha hc
      · rfl
    cases op with
    | db =>
      cases hvalues : s.operands.mapM (number .byte) with
      | error p => rfl
      | ok values =>
        have hpack : values.mapM packByte = .ok (values.map UInt8.ofNat) :=
          mapM_eq_ok_map fun v hv => if_pos (le_limit_of_mem hvalues hv)
        change (values.mapM packByte).mapError Sum.inl = _
        rw [hpack]
        rfl
    | dw =>
      cases hvalues : s.operands.mapM (number .word) with
      | error p => rfl
      | ok values =>
        have hpack : values.mapM packWord = .ok (values.map bytesOfWord) :=
          mapM_eq_ok_map fun v hv => if_pos (le_limit_of_mem hvalues hv)
        change (do return (← (values.mapM packWord).mapError Sum.inl).flatten) = _
        rw [hpack]
        rfl
    | _ => exact hword _ rfl

theorem strictEncodeItem_eq (labels : Labels) (i : Located) :
    strictEncodeItem labels i = (encodeItem labels i).mapError .inr := by
  obtain ⟨line, name | s⟩ := i
  · rfl
  · rw [strictEncodeItem, encodeItem, strictEncode_eq]
    cases encode labels s <;> rfl

/-- A text that was stripped does not start with a blank. -/
theorem isBlank_of_strip {c : Char} {cs rest : List Char} (h : strip cs = c :: rest) :
    isBlank c = false := by
  obtain ⟨t, ht⟩ : strip cs <+: stripLeft cs := List.rdropWhile_prefix isBlank (stripLeft cs)
  have hleft : cs.dropWhile isBlank = c :: (rest ++ t) := by
    rw [← List.cons_append, ← h, ht]
    rfl
  have hhead := List.head?_dropWhile_not isBlank cs
  rw [hleft] at hhead
  exact hhead

/-- What is left of a line is stripped. -/
theorem exists_strip_of_leadingLabels (ps : List (List Char)) :
    ∃ cs, (leadingLabels ps).2 = strip cs := by
  induction ps with
  | nil => exact ⟨[], rfl⟩
  | cons p ps ih =>
    cases ps with
    | nil => exact ⟨p, rfl⟩
    | cons q qs =>
      rw [leadingLabels]
      split
      · exact ih
      · exact ⟨_, rfl⟩

theorem exists_firstWord (ps : List (List Char)) :
    ∃ word, firstWord (leadingLabels ps).2 = .ok word := by
  obtain ⟨cs, hcs⟩ := exists_strip_of_leadingLabels ps
  rw [hcs]
  cases hs : strip cs with
  | nil => exact ⟨[], rfl⟩
  | cons c rest =>
    rw [firstWord, List.takeWhile_cons_of_pos (by rw [isBlank_of_strip hs]; rfl)]
    exact ⟨_, rfl⟩

theorem strictItemsOfLine_eq (number : Nat) (line : List Char) :
    strictItemsOfLine number line = (itemsOfLine number line).mapError .inr := by
  obtain ⟨word, hword⟩ := exists_firstWord (pieces ':' (withoutComment line))
  rw [strictItemsOfLine, hword]
  rfl

theorem strictItems_eq (source : List Char) :
    strictItems source = (items source).mapError .inr := by
  rw [strictItems, items]
  simp only [strictItemsOfLine_eq]
  rw [mapM_mapError fun x : List Char × Nat => itemsOfLine x.2 x.1]
  cases ((pieces '\n' source).zipIdx 1).mapM fun x => itemsOfLine x.2 x.1 <;> rfl

theorem strictLastLine_eq (h : its ≠ []) : strictLastLine its = .ok (lastLine its) := by
  obtain ⟨i, hi⟩ := Option.ne_none_iff_exists'.mp (mt List.getLast?_eq_none_iff.mp h)
  rw [strictLastLine, lastLine, hi]
  rfl

theorem ne_nil_of_too_long {bytes : List UInt8} (h : encodeItems labels its = .ok bytes)
    (hlong : maxProgramSize < bytes.length) : its ≠ [] := by
  rintro rfl
  obtain rfl := Except.ok.inj h
  exact absurd hlong (Nat.not_lt_zero _)

theorem strictAssembleChars_eq (source : List Char) :
    strictAssembleChars source = (assembleChars source).mapError .inr := by
  rw [strictAssembleChars, assembleChars, mapError_bind, strictItems_eq]
  refine congrArg (_ >>= ·) (funext fun its => ?_)
  rw [mapError_bind]
  refine congrArg (_ >>= ·) (funext fun labels => ?_)
  have hmap : its.mapM (strictEncodeItem labels) =
      (its.mapM (encodeItem labels)).mapError .inr := by
    rw [← mapM_mapError]
    exact congrArg (its.mapM ·) (funext (strictEncodeItem_eq labels))
  rw [hmap, encodeItems, bind_assoc, mapError_bind]
  cases hbytes : its.mapM (encodeItem labels) with
  | error r => rfl
  | ok bss =>
    by_cases hlong : maxProgramSize < bss.flatten.length
    · have hencoded : encodeItems labels its = .ok bss.flatten := by
        rw [encodeItems, hbytes]
        rfl
      have hne : its ≠ [] := ne_nil_of_too_long hencoded hlong
      change (if _ then _ else _) = Except.mapError Sum.inr (if _ then _ else _)
      rw [if_pos hlong, if_pos hlong, strictLastLine_eq hne]
      rfl
    · change (if _ then _ else _) = Except.mapError Sum.inr (if _ then _ else _)
      rw [if_neg hlong, if_neg hlong]
      rfl

/-! ### The line of a refusal -/

theorem line_of_collectLabels_error {here : Nat} {known : Labels} {r : Refusal}
    (h : collectLabels here known its = .error r) : ∃ i ∈ its, i.line = r.line := by
  induction its generalizing here known with
  | nil => cases h
  | cons i its ih =>
    have hrest : ∀ {here known}, collectLabels here known its = .error r →
        ∃ i' ∈ i :: its, i'.line = r.line := by
      intro here known h
      obtain ⟨i', hmem, hline⟩ := ih h
      exact ⟨i', List.mem_cons_of_mem i hmem, hline⟩
    obtain ⟨line, name | s⟩ := i
    · rw [collectLabels] at h
      split at h
      · obtain rfl := Except.error.inj h
        exact ⟨_, List.mem_cons_self, rfl⟩
      · exact hrest h
    · exact hrest h

theorem line_of_encodeItem_error {i : Located} {r : Refusal} (h : encodeItem labels i = .error r) :
    i.line = r.line := by
  obtain ⟨line, name | s⟩ := i
  · cases h
  · rw [encodeItem] at h
    cases he : encode labels s with
    | ok bytes =>
      rw [he] at h
      cases h
    | error p =>
      rw [he] at h
      obtain rfl := Except.error.inj h
      rfl

/-- A refusal has the number of a line of the text. -/
theorem isLineOf_of_assembleChars_eq_error {r : Refusal} (h : assembleChars source = .error r) :
    IsLineOf source r.line := by
  rcases bind_eq_error_iff.mp h with hitems | ⟨its, hits, h⟩
  · exact isLineOf_of_items_eq_error hitems
  rcases bind_eq_error_iff.mp h with hlabels | ⟨labels, -, h⟩
  · obtain ⟨i, hmem, hline⟩ := line_of_collectLabels_error hlabels
    exact hline ▸ isLineOf_of_mem_items hits hmem
  rcases bind_eq_error_iff.mp h with hbytes | ⟨bytes, hbytes, h⟩
  · rcases bind_eq_error_iff.mp hbytes with hitem | ⟨bss, -, hflat⟩
    · obtain ⟨i, hmem, he⟩ := exists_of_mapM_eq_error hitem
      exact line_of_encodeItem_error he ▸ isLineOf_of_mem_items hits hmem
    · cases hflat
  · split at h
    · next hlong =>
      obtain rfl := Except.error.inj h
      have hne := ne_nil_of_too_long hbytes hlong
      have hlast : lastLine its = (its.getLast hne).line := by
        rw [lastLine, List.getLast?_eq_some_getLast hne]
        rfl
      change IsLineOf source (lastLine its)
      rw [hlast]
      exact isLineOf_of_mem_items hits (List.getLast_mem hne)
    · cases h

end Assembly

open Assembly

/-- The assembler, with a mishap for every step that has no result. -/
def strictAssemble (source : String) : Except (Mishap ⊕ Refusal) (List UInt8) :=
  strictAssembleChars source.toList

/-- No step of the assembler goes wrong, whatever the source text. -/
theorem strictAssemble_eq (source : String) :
    strictAssemble source = (assemble source).mapError .inr :=
  strictAssembleChars_eq source.toList

/-- Assembling is total, and what it gives can be loaded. There is never a mishap. Either there is a
program that is not too long, and every intact machine takes it and is otherwise as before, or there
is a refusal with the number of a line. -/
theorem assemble_total (source : String) :
    strictAssemble source = (assemble source).mapError .inr ∧
    ((∃ program, assemble source = .ok program ∧ program.length ≤ maxProgramSize ∧
        ∀ {κ β δ ρ : Type} (m : Machine κ β δ ρ), m.cpu.Intact →
          ∃ memory, Machine.loadProgram program m =
              .ok () { m with cpu := { m.cpu with memory := memory } } ∧
            Machine.Holds program m.cpu.memory memory) ∨
      ∃ r, assemble source = .error r ∧ 1 ≤ r.line ∧ r.line ≤ source.toList.count '\n' + 1) := by
  refine ⟨strictAssemble_eq source, ?_⟩
  cases h : assemble source with
  | ok program =>
    obtain ⟨its, labels, hp⟩ := assembleChars_eq_ok_iff.mp h
    exact .inl ⟨program, rfl, hp.fits, fun m hm => Machine.loadProgram_holds hp.fits hm.memory⟩
  | error r => exact .inr ⟨r, rfl, isLineOf_of_assembleChars_eq_error h⟩

/-- One byte of data is loaded, and a load without its second operand is refused on its line. -/
theorem assemble_total_of_data :
    (∃ memory, Machine.loadProgram [0xAB] (Machine.headless .powerOn) =
        .ok () { Machine.headless .powerOn with
          cpu := { Processor.powerOn with memory := memory } } ∧
      memory[0x200]? = some 0xAB) ∧
    ∃ r, strictAssemble "DB 0xAB\nLD V1" = .error (.inr r) ∧ r.line ≤ 2 := by
  have hdata : assemble "DB 0xAB" = .ok [0xAB] := by decide +kernel
  have hload : assemble "DB 0xAB\nLD V1" = .error ⟨2, .wrongCount "LD" (.exactly 2) 1⟩ := by
    decide +kernel
  constructor
  · obtain ⟨-, ⟨program, hp, -, hloads⟩ | ⟨r, hr, -⟩⟩ := assemble_total "DB 0xAB"
    · obtain rfl := Except.ok.inj (hp.symm.trans hdata)
      obtain ⟨memory, hm, hholds⟩ := hloads (Machine.headless .powerOn) Processor.intact_powerOn
      exact ⟨memory, hm, hholds.loaded 0 (by decide)⟩
    · cases hr.symm.trans hdata
  · obtain ⟨hstrict, ⟨program, hp, -⟩ | ⟨r, hr, -, hline⟩⟩ := assemble_total "DB 0xAB\nLD V1"
    · cases hp.symm.trans hload
    · exact ⟨r, by rw [hstrict, hr]; rfl, hline⟩

end Chip8
