import Chip8.Proofs.Assembly.Line

/-!
# Source texts put one after the other

Labels are known everywhere in a source text, before their definition and after it, and a label wins
over a number. So it is not clear from the passes that text at the end leaves the code before it
alone. It does, for three reasons.

A name is no number: no operand that can be read as one is spelled like a label, in whatever case or
script. An address that was found without a label is therefore found again when there are more
labels. The labels that were there keep their addresses, since what comes later in the text lies
behind them. And everything but the number of its line is known of an item from the line alone.

## Main definitions

* `Labels.Extends` — more labels
* `DefinesLabel` — the labels of a source text

## Main results

* `numeral?_eq_none_of_name` — names are no numbers
* `encodeItems_of_extends` — more labels do not change what could be encoded
* `assemble_append` — the bytes of two texts
-/

namespace Chip8

namespace Assembly

open Text

variable {labels labels' known : Labels} {its its' pre post : List Located}
variable {name operand : List Char}

/-! ### Names are no numbers -/

theorem forall_ascii {P : Char → Prop} (h : ∀ n < 0x80, P (Char.ofNat n)) {c : Char}
    (hc : c.toNat < 0x80) : P c := by
  rw [← Char.ofNat_toNat c]
  exact h c.toNat hc

theorem toNat_lt_of_isNamePart {c : Char} (h : isNamePart c = true) : c.toNat < 0x80 := by
  rw [isNamePart, Bool.or_eq_true, isAlphanum_iff, beq_iff_eq] at h
  obtain h | rfl := h
  · omega
  · decide

theorem isNamePart_of_isNameStart {c : Char} (h : isNameStart c = true) : isNamePart c = true := by
  rw [isNameStart, Bool.or_eq_true] at h
  rw [isNamePart, Char.isAlphanum, Bool.or_eq_true, Bool.or_eq_true]
  exact h.imp_left .inl

/-- There are no blanks in the capitals of a name. -/
theorem isBlank_of_isNamePart {c : Char} (h : isNamePart c = true) :
    ∀ d ∈ upperChar c, isBlank d = false := by
  have hall : (upperChar c).all (!isBlank ·) = true :=
    forall_ascii (P := fun c => isNamePart c = true → (upperChar c).all (!isBlank ·) = true)
      (by decide) (toNat_lt_of_isNamePart h) h
  simpa using hall

/-- What the capitals of a name start with: an underscore or a letter of ASCII. -/
def capitals : List Char := '_' :: (List.range' 0x41 26).map Char.ofNat

theorem upperChar_of_isNameStart {c : Char} (h : isNameStart c = true) :
    upperChar c = [c.toUpper] ∧ c.toUpper ∈ capitals :=
  forall_ascii
    (P := fun c => isNameStart c = true → upperChar c = [c.toUpper] ∧ c.toUpper ∈ capitals)
    (by decide) (toNat_lt_of_isNamePart (isNamePart_of_isNameStart h)) h

/-- No number starts like that, with a digit, a mark or a sign. -/
theorem of_mem_capitals {c : Char} (h : c ∈ capitals) :
    (c = '_' ∨ digitValue? 10 c = none) ∧ c ≠ '0' ∧ c ≠ '-' ∧ c ≠ '+' := by
  have hall : (capitals.all fun c => (c == '_' || digitValue? 10 c == none) &&
      (c != '0' && (c != '-' && c != '+'))) = true := by decide
  simpa using List.all_eq_true.mp hall c h

theorem isBlank_of_isName (h : isName name = true) : ∀ c ∈ upper name, isBlank c = false := by
  obtain _ | ⟨c, cs⟩ := name
  · exact absurd h (by decide)
  · rw [isName, Bool.and_eq_true, List.all_eq_true] at h
    intro d hd
    obtain ⟨c', hmem, hd'⟩ := List.mem_flatMap.mp hd
    rcases List.mem_cons.mp hmem with rfl | hmem
    · exact isBlank_of_isNamePart (isNamePart_of_isNameStart h.1) d hd'
    · exact isBlank_of_isNamePart (h.2 c' hmem) d hd'

/-- A run of digits does not start like a name. -/
theorem digits?_of_capital {d : Char} (h : d ∈ capitals) (ds : List Char) :
    digits? 10 (d :: ds) = none := by
  rw [digits?]
  by_cases hd : d = '_'
  · -- There is nothing before an underscore in front.
    obtain ⟨p, ps, hp⟩ := List.exists_cons_of_ne_nil (pieces_ne_nil '_' ds)
    rw [pieces_cons, hp, cutAt, if_pos hd, if_pos (by simp)]
  · have hnone := (of_mem_capitals h).1.resolve_left hd
    split
    · rfl
    · rw [List.filter_cons_of_pos (by simpa using hd), List.mapM_cons, hnone]
      rfl

/-- No operand is a number that is spelled like a name. -/
theorem numeral?_eq_none_of_name (hn : isName name = true) (hu : upper operand = upper name) :
    numeral? operand = none := by
  have hblank := isBlank_of_isName hn
  obtain ⟨d, ds, hd, hcapital⟩ : ∃ d ds, upper name = d :: ds ∧ d ∈ capitals := by
    obtain _ | ⟨c, cs⟩ := name
    · exact absurd hn (by decide)
    · rw [isName, Bool.and_eq_true] at hn
      obtain ⟨hc, hmem⟩ := upperChar_of_isNameStart hn.1
      exact ⟨_, upper cs, by rw [upper_cons, hc]; rfl, hmem⟩
  obtain ⟨-, hzero, hminus, hplus⟩ := of_mem_capitals hcapital
  have hstrip : strip operand = operand := strip_of_upper (hu ▸ hblank)
  have hself : strip (d :: ds) = d :: ds := strip_of_all (hd ▸ hblank)
  have hdecimal : decimal? (d :: ds) = none := by
    rw [decimal?]
    split
    · rfl
    · rw [hself]
      simp [hminus, hplus, unsignedDecimal?, digits?_of_capital hcapital]
  rw [numeral?, hstrip, hu, hd]
  split
  · next h => exact absurd (List.cons.inj h).1 hzero
  · next h => exact absurd (List.cons.inj h).1 hzero
  · exact hdecimal

/-! ### More labels -/

/-- All labels are names. -/
def Labels.Named (labels : Labels) : Prop :=
  ∀ n a, labels.lookup n = some a → ∃ name, isName name = true ∧ n = upper name

/-- There are more labels, and those that there were have the same addresses. -/
structure Labels.Extends (labels labels' : Labels) : Prop where
  kept : ∀ n a, labels.lookup n = some a → labels'.lookup n = some a
  named : labels'.Named

section Extends

variable {s : Statement} {bytes : List UInt8} {v : Nat}

/-- An address is found again. If it was not a label, it is none of the new ones either. -/
theorem address_of_extends (h : labels.Extends labels') (ha : address labels operand = .ok v) :
    address labels' operand = .ok v := by
  rw [address_eq_ok_iff] at ha ⊢
  refine ⟨?_, ha.2⟩
  have hvalue := ha.1
  rw [addressValue?] at hvalue ⊢
  cases hl : labels.lookup (upper operand) with
  | some a =>
    rw [hl] at hvalue
    rw [h.kept _ _ hl]
    exact hvalue
  | none =>
    rw [hl] at hvalue
    cases hl' : labels'.lookup (upper operand) with
    | none => exact hvalue
    | some a =>
      obtain ⟨name, hn, hu⟩ := h.named _ _ hl'
      rw [numeral?_eq_none_of_name hn hu] at hvalue
      cases hvalue

theorem bind_address_of_extends (h : labels.Extends labels') {f : Nat → Nat}
    (ha : (do return f (← address labels operand) : Except Problem Nat) = .ok v) :
    (do return f (← address labels' operand) : Except Problem Nat) = .ok v := by
  obtain ⟨a, ha, hv⟩ := bind_eq_ok_iff.mp ha
  exact bind_eq_ok_iff.mpr ⟨a, address_of_extends h ha, hv⟩

theorem loadWord_of_extends (h : labels.Extends labels') {target source : List Char}
    (hv : loadWord labels target source = .ok v) : loadWord labels' target source = .ok v := by
  rw [loadWord_eq_ok_iff] at hv ⊢
  refine hv.imp_left fun ⟨hi, k, hk, hword⟩ => ⟨hi, k, address_of_extends h hk, hword⟩

/-- Only jumps, calls and loads look at labels. -/
theorem instructionWord_of_extends (h : labels.Extends labels') {op : Operation}
    {operands : List (List Char)} (hv : instructionWord labels op operands = .ok v) :
    instructionWord labels' op operands = .ok v := by
  unfold instructionWord at hv ⊢
  split at hv
  case h_3 | h_5 => exact bind_address_of_extends h hv
  case h_4 =>
    split at hv
    · next ht => exact (if_pos ht).trans (bind_address_of_extends h hv)
    · cases hv
  case h_8 => exact loadWord_of_extends h hv
  all_goals exact hv

theorem encode_of_extends (h : labels.Extends labels') (he : encode labels s = .ok bytes) :
    encode labels' s = .ok bytes := by
  by_cases hdb : s.operation = Operation.db.name.toList
  · exact (encode_db hdb).mpr ((encode_db hdb).mp he)
  · by_cases hdw : s.operation = Operation.dw.name.toList
    · exact (encode_dw hdw).mpr ((encode_dw hdw).mp he)
    · obtain ⟨op, arity, v, hop, ha, hc, hv, hb⟩ := exists_instructionWord he hdb hdw
      exact (encode_eq_ok_iff hop ha).mpr ⟨hc, v, instructionWord_of_extends h hv, hb⟩

/-- What could be encoded comes to the same bytes. -/
theorem encodeItems_of_extends (h : labels.Extends labels')
    (he : encodeItems labels its = .ok bytes) : encodeItems labels' its = .ok bytes := by
  induction its generalizing bytes with
  | nil => exact he
  | cons i its ih =>
    obtain ⟨b, bs, hb, hbs, rfl⟩ := encodeItems_cons_eq_ok_iff.mp he
    refine encodeItems_cons_eq_ok_iff.mpr ⟨b, bs, ?_, ih hbs, rfl⟩
    obtain ⟨line, name | s⟩ := i
    · exact hb
    · exact encodeItem_statement_eq_ok_iff.mpr
        (encode_of_extends h (encodeItem_statement_eq_ok_iff.mp hb))

end Extends

/-! ### The labels of two texts -/

variable {here : Nat}

/-- The first pass goes on behind the sizes of what it has seen. -/
theorem collectLabels_append_eq_ok_iff :
    collectLabels here known (pre ++ post) = .ok labels ↔
      ∃ mid, collectLabels here known pre = .ok mid ∧
        collectLabels (here + totalSize pre) mid post = .ok labels := by
  induction pre generalizing here known with
  | nil => simp [collectLabels, totalSize]
  | cons i pre ih =>
    obtain ⟨line, name | s⟩ := i
    · simp only [List.cons_append, collectLabels, totalSize, Item.size, Nat.zero_add]
      split
      · simp
      · exact ih
    · simp only [List.cons_append, collectLabels, totalSize, Item.size, ← Nat.add_assoc]
      exact ih

theorem named_collectLabels (h : collectLabels here known its = .ok labels) (hk : known.Named)
    (hits : ∀ line name, ⟨line, .label name⟩ ∈ its → isName name = true) : labels.Named := by
  induction its generalizing here known with
  | nil =>
    obtain rfl := Except.ok.inj h
    exact hk
  | cons i its ih =>
    have hrest := fun line name hm => hits line name (List.mem_cons_of_mem i hm)
    obtain ⟨line, name | s⟩ := i
    · rw [collectLabels] at h
      split at h
      · cases h
      · refine ih h ?_ hrest
        intro n a hl
        rw [List.lookup_cons] at hl
        split at hl
        · next heq => exact ⟨name, hits line name List.mem_cons_self, beq_iff_eq.mp heq⟩
        · exact hk n a hl
    · exact ih h hk hrest

/-- Without label items there are no labels. -/
theorem collectLabels_of_no_label (h : collectLabels here known its = .ok labels)
    (hits : ∀ line name, ⟨line, .label name⟩ ∉ its) : labels = known := by
  induction its generalizing here with
  | nil => exact (Except.ok.inj h).symm
  | cons i its ih =>
    obtain ⟨line, name | s⟩ := i
    · exact absurd List.mem_cons_self (hits line name)
    · exact ih h fun line name hm => hits line name (List.mem_cons_of_mem _ hm)

/-- The number of the line does not matter to the bytes. -/
theorem encodeItems_down (k : Nat) {bytes : List UInt8} :
    encodeItems labels (its.map (·.down k)) = .ok bytes ↔ encodeItems labels its = .ok bytes := by
  induction its generalizing bytes with
  | nil => rfl
  | cons i its ih =>
    have hitem : ∀ b, encodeItem labels (i.down k) = .ok b ↔ encodeItem labels i = .ok b := by
      intro b
      obtain ⟨line, name | s⟩ := i
      · rfl
      · exact encodeItem_statement_eq_ok_iff.trans encodeItem_statement_eq_ok_iff.symm
    rw [List.map_cons, encodeItems_cons_eq_ok_iff, encodeItems_cons_eq_ok_iff]
    simp only [hitem, ih]

/-- What the passes find in two texts, the second of which comes `k` lines further down. -/
theorem Passes.append {a b : List Char} {A C : List UInt8} {ia its : List Located} {la lc : Labels}
    (ha : Passes a ia la A) (hc : Passes (a ++ '\n' :: b) its lc C) :
    la.Extends lc ∧ ∃ ib B, items b = .ok ib ∧ encodeItems lc ib = .ok B ∧ C = A ++ B := by
  obtain ⟨ia', ib, hia, hib, hits⟩ := items_append_eq_ok_iff.mp hc.items_eq
  obtain rfl := Except.ok.inj (hia.symm.trans ha.items_eq)
  obtain ⟨mid, hmid, hlast⟩ := collectLabels_append_eq_ok_iff.mp (hits ▸ hc.labels_eq)
  obtain rfl := Except.ok.inj (hmid.symm.trans ha.labels_eq)
  have hextends : Labels.Extends mid lc := {
    kept := fun n a => lookup_collectLabels_of_known hlast
    named := named_collectLabels hc.labels_eq (fun n a hl => nomatch hl)
      fun line name hm => isName_of_mem_items hc.items_eq hm }
  obtain ⟨A', B, hA, hB, hsum⟩ := encodeItems_append_eq_ok_iff.mp (hits ▸ hc.bytes_eq)
  obtain rfl := Except.ok.inj (hA.symm.trans (encodeItems_of_extends hextends ha.bytes_eq))
  exact ⟨hextends, ib, B, hib, (encodeItems_down _).mp hB, hsum.symm⟩

end Assembly

open Assembly

/-- Whether a source text defines a label. -/
def DefinesLabel (source : String) (name : List Char) : Prop :=
  ∃ its line, items source.toList = .ok its ∧ ⟨line, .label name⟩ ∈ its

/-- Text at the end does not change the bytes of what stands before it. If it is a source text of
its own and defines no label, it also comes to its own bytes. -/
theorem assemble_append {a b : String} {A C : List UInt8} (ha : assemble a = .ok A)
    (hc : assemble (a ++ "\n" ++ b) = .ok C) :
    A <+: C ∧
      ∀ B, assemble b = .ok B → (∀ name, ¬ DefinesLabel b name) → C = A ++ B := by
  have htext : (a ++ "\n" ++ b).toList = a.toList ++ '\n' :: b.toList := by simp
  obtain ⟨ia, la, hpa⟩ := assembleChars_eq_ok_iff.mp ha
  rw [assemble, htext] at hc
  obtain ⟨its, lc, hpc⟩ := assembleChars_eq_ok_iff.mp hc
  obtain ⟨hextends, ib, B, hib, hB, rfl⟩ := hpa.append hpc
  refine ⟨List.prefix_append A B, fun B' hb hno => ?_⟩
  obtain ⟨ib', lb, hpb⟩ := assembleChars_eq_ok_iff.mp hb
  obtain rfl := Except.ok.inj (hib.symm.trans hpb.items_eq)
  -- Without labels of its own, the second text is encoded with numbers alone.
  obtain rfl : lb = [] := collectLabels_of_no_label hpb.labels_eq
    fun line name hm => hno name ⟨ib, line, hib, hm⟩
  have hnumbers : Labels.Extends [] lc := ⟨fun n a hl => (nomatch hl), hextends.named⟩
  rw [Except.ok.inj (hB.symm.trans (encodeItems_of_extends hnumbers hpb.bytes_eq))]

/-- The digits of a number are spelled like a label, in the text that defines it and in the text
behind it. -/
theorem assemble_append_digits_like_label :
    assemble "abc: JP 0xABC\nCALL abc" = .ok [0x1A, 0xBC, 0x22, 0x00] ∧
    assemble "jp 0xabc\nDW 0xAbC, 1_0" = .ok [0x1A, 0xBC, 0x0A, 0xBC, 0x00, 0x0A] ∧
    ∃ C, assemble ("abc: JP 0xABC\nCALL abc" ++ "\n" ++ "jp 0xabc\nDW 0xAbC, 1_0") = .ok C ∧
      [0x1A, 0xBC, 0x22, 0x00] <+: C ∧
      C = [0x1A, 0xBC, 0x22, 0x00] ++ [0x1A, 0xBC, 0x0A, 0xBC, 0x00, 0x0A] := by
  have ha : assemble "abc: JP 0xABC\nCALL abc" = .ok [0x1A, 0xBC, 0x22, 0x00] := by decide +kernel
  have hb : assemble "jp 0xabc\nDW 0xAbC, 1_0" =
      .ok [0x1A, 0xBC, 0x0A, 0xBC, 0x00, 0x0A] := by decide +kernel
  have hno : ∀ name, ¬ DefinesLabel "jp 0xabc\nDW 0xAbC, 1_0" name := by
    rintro name ⟨its, line, hits, hm⟩
    have hitems : items "jp 0xabc\nDW 0xAbC, 1_0".toList = .ok
        [⟨1, .statement ⟨"JP".toList, ["0xabc".toList]⟩⟩,
          ⟨2, .statement ⟨"DW".toList, ["0xAbC".toList, "1_0".toList]⟩⟩] := by decide +kernel
    obtain rfl := Except.ok.inj (hitems.symm.trans hits)
    simp at hm
  obtain ⟨C, hc⟩ : ∃ C, assemble ("abc: JP 0xABC\nCALL abc" ++ "\n" ++
      "jp 0xabc\nDW 0xAbC, 1_0") = .ok C :=
    ⟨[0x1A, 0xBC, 0x22, 0x00, 0x1A, 0xBC, 0x0A, 0xBC, 0x00, 0x0A], by decide +kernel⟩
  obtain ⟨hstart, hsum⟩ := assemble_append ha hc
  exact ⟨ha, hb, C, hc, hstart, hsum _ hb hno⟩

end Chip8
