import Chip8.Assembly.Program
import Chip8.Proofs.Assembly.Encoding

/-!
# The two passes

The passes go through the same items and count in different ways: the first adds up the sizes that
statements are said to have, the second puts bytes one after the other. Here is what each of them
finds, stated for a cut through the items: the label behind a part of them has the address that the
sizes of this part lead to, and the bytes of the whole are the bytes of the parts.

The counts agree because a statement that can be encoded takes exactly the bytes it was said to
take, `length_encode`. That is all the first pass relies on.

## Main results

* `assembleChars_eq_ok_iff` — what there is when a source text is assembled
* `length_encode`, `length_encodeItems` — sizes are right
* `lookup_collectLabels` — the address of a label
* `encodeItems_append_eq_ok_iff`, `Passes.cut` — the bytes of the parts
-/

namespace Chip8.Assembly

open Text

variable {labels : Labels} {s : Statement} {bytes : List UInt8}

/-- What the passes find when a source text is assembled: its items, the addresses of its labels and
its bytes. -/
structure Passes (source : List Char) (its : List Located) (labels : Labels)
    (bytes : List UInt8) : Prop where
  items_eq : items source = .ok its
  labels_eq : collectLabels programStart [] its = .ok labels
  bytes_eq : encodeItems labels its = .ok bytes
  fits : bytes.length ≤ maxProgramSize

theorem assembleChars_eq_ok_iff {source : List Char} :
    assembleChars source = .ok bytes ↔ ∃ its labels, Passes source its labels bytes := by
  simp only [assembleChars, bind_eq_ok_iff]
  constructor
  · rintro ⟨its, hi, labels, hl, bytes', hb, h⟩
    split at h
    · cases h
    · next hfit =>
      obtain rfl := pure_eq_ok_iff.mp h
      exact ⟨its, labels, hi, hl, hb, Nat.le_of_not_lt hfit⟩
  · rintro ⟨its, labels, hi, hl, hb, hfit⟩
    refine ⟨its, hi, labels, hl, bytes, hb, ?_⟩
    rw [if_neg (Nat.not_lt.mpr hfit)]
    rfl

/-! ### The bytes of a statement -/

theorem ofName?_name (o : Operation) : Operation.ofName? o.name.toList = some o := by
  cases o <;> decide

theorem ofName?_eq_some_iff {text : List Char} {o : Operation} :
    Operation.ofName? text = some o ↔ text = o.name.toList := by
  constructor
  · intro h
    have hname := List.find?_some h
    exact (beq_iff_eq.mp hname).symm
  · rintro rfl
    exact ofName?_name o

/-- A statement with a number of operands of its own is encoded as one word. -/
theorem encode_of_arity {op : Operation} {arity : Arity} (hop : s.operation = op.name.toList)
    (ha : op.arity = some arity) :
    encode labels s =
      if arity.admits s.operands.length then do
        return bytesOfWord (← instructionWord labels op s.operands)
      else .error (.wrongCount op.name arity s.operands.length) := by
  rw [encode, hop, ofName?_name]
  cases op <;> cases ha <;> rfl

theorem encode_eq_ok_iff {op : Operation} {arity : Arity} (hop : s.operation = op.name.toList)
    (ha : op.arity = some arity) :
    encode labels s = .ok bytes ↔ arity.admits s.operands.length = true ∧
      ∃ v, instructionWord labels op s.operands = .ok v ∧ bytesOfWord v = bytes := by
  rw [encode_of_arity hop ha]
  split
  · next hc => simp only [bind_eq_ok_iff, pure_eq_ok_iff, hc, true_and]
  · next hc => simp [hc]

theorem size_of_arity {op : Operation} {arity : Arity} (hop : s.operation = op.name.toList)
    (ha : op.arity = some arity) : s.size = 2 := by
  rw [Statement.size, hop, ofName?_name]
  cases op <;> cases ha <;> rfl

theorem encode_db (hop : s.operation = Operation.db.name.toList) :
    encode labels s = .ok bytes ↔
      ∃ ns, s.operands.mapM (number .byte) = .ok ns ∧ ns.map UInt8.ofNat = bytes := by
  rw [encode, hop, ofName?_name]
  exact map_eq_ok_iff

theorem encode_dw (hop : s.operation = Operation.dw.name.toList) :
    encode labels s = .ok bytes ↔
      ∃ ns, s.operands.mapM (number .word) = .ok ns ∧ ns.flatMap bytesOfWord = bytes := by
  rw [encode, hop, ofName?_name]
  exact map_eq_ok_iff

/-- Only statements with a known operation are encoded. -/
theorem exists_operation (h : encode labels s = .ok bytes) :
    ∃ op : Operation, s.operation = op.name.toList := by
  cases hop : Operation.ofName? s.operation with
  | none =>
    rw [encode, hop] at h
    cases h
  | some op => exact ⟨op, ofName?_eq_some_iff.mp hop⟩

/-- What is neither of the two kinds of data is a word of its own. -/
theorem exists_instructionWord (h : encode labels s = .ok bytes)
    (hdb : s.operation ≠ Operation.db.name.toList) (hdw : s.operation ≠ Operation.dw.name.toList) :
    ∃ op arity v, s.operation = op.name.toList ∧ op.arity = some arity ∧
      arity.admits s.operands.length = true ∧ instructionWord labels op s.operands = .ok v ∧
      bytesOfWord v = bytes := by
  obtain ⟨op, hop⟩ := exists_operation h
  have ha : ∃ arity, op.arity = some arity := by
    cases op
    case db => exact absurd hop hdb
    case dw => exact absurd hop hdw
    all_goals exact ⟨_, rfl⟩
  obtain ⟨arity, ha⟩ := ha
  obtain ⟨hc, v, hv, hb⟩ := (encode_eq_ok_iff hop ha).mp h
  exact ⟨op, arity, v, hop, ha, hc, hv, hb⟩

@[simp] theorem length_bytesOfWord (v : Nat) : (bytesOfWord v).length = 2 := rfl

/-- The two bytes of a word are read as that word. -/
theorem ofBytes_bytesOfWord {v : Nat} (h : v < 0x10000) : Word.ofBytes (bytesOfWord v) = ⟨v⟩ := by
  simp only [bytesOfWord, Word.ofBytes, List.foldl_cons, List.foldl_nil, UInt8.toNat_ofNat',
    Word.mk.injEq]
  omega

/-- A statement takes the bytes it was said to take. -/
theorem length_encode (h : encode labels s = .ok bytes) : bytes.length = s.size := by
  obtain ⟨op, hop⟩ := exists_operation h
  by_cases hdb : s.operation = Operation.db.name.toList
  · obtain ⟨ns, hns, rfl⟩ := (encode_db hdb).mp h
    rw [Statement.size, hdb, ofName?_name, List.length_map]
    exact length_of_mapM hns
  · by_cases hdw : s.operation = Operation.dw.name.toList
    · obtain ⟨ns, hns, rfl⟩ := (encode_dw hdw).mp h
      rw [Statement.size, hdw, ofName?_name, List.length_flatMap]
      simp [length_of_mapM hns, Nat.mul_comm]
    · obtain ⟨op, arity, v, hop, ha, -, -, rfl⟩ := exists_instructionWord h hdb hdw
      exact (size_of_arity hop ha).symm

/-! ### The bytes of several items -/

/-- The number of bytes that an item is said to take. -/
def Item.size : Item → Nat
  | .label _ => 0
  | .statement s => s.size

/-- The number of bytes that some items are said to take. -/
def totalSize : List Located → Nat
  | [] => 0
  | i :: its => i.item.size + totalSize its

variable {its pre post : List Located}

theorem encodeItem_statement_eq_ok_iff {line : Nat} :
    encodeItem labels ⟨line, .statement s⟩ = .ok bytes ↔ encode labels s = .ok bytes := by
  rw [encodeItem]
  cases encode labels s <;> simp [Except.mapError]

theorem length_encodeItem {i : Located} (h : encodeItem labels i = .ok bytes) :
    bytes.length = i.item.size := by
  obtain ⟨line, name | s⟩ := i
  · obtain rfl := Except.ok.inj h
    rfl
  · exact length_encode (encodeItem_statement_eq_ok_iff.mp h)

theorem encodeItems_nil : encodeItems labels [] = .ok [] := rfl

theorem encodeItems_cons_eq_ok_iff {i : Located} :
    encodeItems labels (i :: its) = .ok bytes ↔
      ∃ b bs, encodeItem labels i = .ok b ∧ encodeItems labels its = .ok bs ∧ b ++ bs = bytes := by
  simp only [encodeItems, List.mapM_cons, bind_eq_ok_iff, pure_eq_ok_iff]
  grind

/-- The bytes of the whole are the bytes of its parts. -/
theorem encodeItems_append_eq_ok_iff :
    encodeItems labels (pre ++ post) = .ok bytes ↔
      ∃ b bs, encodeItems labels pre = .ok b ∧ encodeItems labels post = .ok bs ∧
        b ++ bs = bytes := by
  induction pre generalizing bytes with
  | nil => simp [encodeItems_nil]
  | cons i pre ih =>
    rw [List.cons_append, encodeItems_cons_eq_ok_iff]
    simp only [encodeItems_cons_eq_ok_iff, ih]
    grind

theorem length_encodeItems (h : encodeItems labels its = .ok bytes) :
    bytes.length = totalSize its := by
  induction its generalizing bytes with
  | nil =>
    obtain rfl := Except.ok.inj h
    rfl
  | cons i its ih =>
    obtain ⟨b, bs, hb, hbs, rfl⟩ := encodeItems_cons_eq_ok_iff.mp h
    rw [List.length_append, length_encodeItem hb, ih hbs, totalSize]

/-- A cut through the items at one of them is a cut through the bytes. -/
theorem Passes.cut {source : List Char} {i : Located} (h : Passes source its labels bytes)
    (hits : its = pre ++ i :: post) :
    ∃ before emitted after, encodeItems labels pre = .ok before ∧
      encodeItem labels i = .ok emitted ∧ encodeItems labels post = .ok after ∧
      bytes = before ++ (emitted ++ after) := by
  have hbytes := h.bytes_eq
  rw [hits] at hbytes
  obtain ⟨before, bs, hbefore, hbs, rfl⟩ := encodeItems_append_eq_ok_iff.mp hbytes
  obtain ⟨emitted, after, hemitted, hafter, rfl⟩ := encodeItems_cons_eq_ok_iff.mp hbs
  exact ⟨before, emitted, after, hbefore, hemitted, hafter, rfl⟩

/-! ### The addresses of labels -/

variable {known : Labels} {here a : Nat} {n : List Char}

/-- No label gets a second address. -/
theorem lookup_collectLabels_of_known (h : collectLabels here known its = .ok labels)
    (hk : known.lookup n = some a) : labels.lookup n = some a := by
  induction its generalizing here known with
  | nil =>
    obtain rfl := Except.ok.inj h
    exact hk
  | cons i its ih =>
    obtain ⟨line, name | s⟩ := i
    · rw [collectLabels] at h
      split at h
      · cases h
      · next hnew =>
        refine ih h ?_
        have hne : (n == upper name) = false := by
          refine beq_eq_false_iff_ne.mpr ?_
          rintro rfl
          exact hnew (by rw [hk]; rfl)
        rw [List.lookup_cons, hne]
        exact hk
    · exact ih h hk

/-- A label has the address that the sizes before it lead to. -/
theorem lookup_collectLabels {line : Nat} {name : List Char}
    (h : collectLabels here known (pre ++ ⟨line, .label name⟩ :: post) = .ok labels) :
    labels.lookup (upper name) = some (here + totalSize pre) := by
  induction pre generalizing here known with
  | nil =>
    rw [List.nil_append, collectLabels] at h
    split at h
    · cases h
    · exact lookup_collectLabels_of_known h (by simp [totalSize])
  | cons i pre ih =>
    obtain ⟨line', name' | s⟩ := i
    · rw [List.cons_append, collectLabels] at h
      split at h
      · cases h
      · rw [ih h]
        simp [totalSize, Item.size]
    · rw [List.cons_append, collectLabels] at h
      rw [ih h]
      simp [totalSize, Item.size, Nat.add_assoc]

end Chip8.Assembly
