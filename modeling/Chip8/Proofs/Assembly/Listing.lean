import Chip8.Proofs.Assembly.Reassembly

/-!
# Listings that are assembled

A listing has a column of assembly text behind the addresses and the bytes. Taken on its own, the
column is a source text, with a line for each word of the program and one for a last odd byte.

It is the program again but for one thing. `CLS` and `RET` say nothing about the second digit of
their words, so where that digit is not zero in the program it is zero in what comes back. `reread`
is what comes back, and the difference is as small as that: no other byte of any program is changed.

## Main results

* `column_render` — the column of a line that is printed
* `listing_assembles` — the column of a listing is assembled, and to what
-/

namespace Chip8

open Assembly Text

namespace Listing

/-- The assembly text in a line that is printed: what stands behind `0x200: 00E0  `. -/
def column (printed : String) : String := String.ofList (printed.toList.drop 13)

/-- The column of the listing of a program. -/
def mnemonics (rom : List UInt8) : String :=
  "\n".intercalate ((lines programStart rom).map fun l => column l.render)

/-- What the column of a listing comes to. -/
def reread : List UInt8 → List UInt8
  | b :: c :: rest =>
    (if b.toNat < 16 ∧ (c = 0xE0 ∨ c = 0xEE) then 0 else b) :: c :: reread rest
  | rest => rest

/-- All addresses have three digits and all bytes take four characters, so the column starts at the
same place in every line. -/
theorem column_render {l : Line} (ha : l.address < 0x1000) (hr : l.raw.toList.length = 4) :
    column l.render = l.text := by
  have haddress : (hexChars hexDigit 3 l.address).length = 3 :=
    length_hexChars hexDigit (Nat.le_of_lt_succ ha : l.address ≤ 0xFFF) (by decide)
  have hrender : l.render.toList =
      ('0' :: 'x' :: hexChars hexDigit 3 l.address ++ ':' :: ' ' :: l.raw.toList ++ [' ', ' ']) ++
        l.text.toList := by
    simp [Line.render, hex]
  have hlength : ('0' :: 'x' :: hexChars hexDigit 3 l.address ++ ':' :: ' ' :: l.raw.toList ++
      [' ', ' ']).length = 13 := by
    simp only [List.length_append, List.length_cons, List.length_nil, haddress, hr]
  rw [column, hrender, List.drop_append_of_le_length (Nat.le_of_eq hlength.symm),
    List.drop_of_length_le (Nat.le_of_eq hlength), List.nil_append, String.ofList_toList]

theorem emits_column {l : Line} {bytes : List UInt8} (ha : l.address < 0x1000)
    (hr : l.raw.toList.length = 4) (h : Emits l.text bytes) : Emits (column l.render) bytes := by
  rwa [column_render ha hr]

/-! ### Lines -/

theorem bytes_ofBytes (b c : UInt8) : (Word.ofBytes [b, c]).bytes = [b, c] := by
  have hb := b.toNat_lt
  have hc := c.toNat_lt
  have hvalue : (Word.ofBytes [b, c]).value.toNat = 256 * b.toNat + c.toNat := by
    rw [Processor.ofBytes_pair]
    exact Int.toNat_natCast _
  rw [Word.bytes, hvalue, bytesOfWord]
  congr 1
  · apply UInt8.toNat_inj.mp
    rw [UInt8.toNat_ofNat']
    omega
  · congr 1
    apply UInt8.toNat_inj.mp
    rw [UInt8.toNat_ofNat']
    omega

theorem decode_ofBytes_iff {b c : UInt8} {i : Instruction} {nn : UInt8} (h0 : i.family = 0)
    (he : i.ending = .byte nn.toNat) :
    (Word.ofBytes [b, c]).decode = some i ↔ b.toNat < 16 ∧ c = nn := by
  have hb := b.toNat_lt
  have hc := c.toNat_lt
  rw [Word.decode_eq_some_iff, h0, he, Word.EndsWith, Processor.ofBytes_pair, ← UInt8.toNat_inj]
  simp only [Word.family, Word.nn, Word.field]
  omega

/-- What is shown of a word, by its bytes. -/
theorem bytes_shown (b c : UInt8) :
    (Word.ofBytes [b, c]).shown.bytes =
      [if b.toNat < 16 ∧ (c = 0xE0 ∨ c = 0xEE) then 0 else b, c] := by
  have hclear : (Word.ofBytes [b, c]).decode = some .clear ↔ b.toNat < 16 ∧ c = 0xE0 :=
    decode_ofBytes_iff rfl rfl
  have hret : (Word.ofBytes [b, c]).decode = some .ret ↔ b.toNat < 16 ∧ c = 0xEE :=
    decode_ofBytes_iff rfl rfl
  by_cases hc : (Word.ofBytes [b, c]).decode = some .clear
  · obtain ⟨hb, rfl⟩ := hclear.mp hc
    rw [Word.shown_of_clear hc, if_pos ⟨hb, .inl rfl⟩]
    rfl
  · by_cases hr : (Word.ofBytes [b, c]).decode = some .ret
    · obtain ⟨hb, rfl⟩ := hret.mp hr
      rw [Word.shown_of_ret hr, if_pos ⟨hb, .inr rfl⟩]
      rfl
    · rw [hclear] at hc
      rw [hret] at hr
      rw [Word.shown_of_ne (by rwa [ne_eq, hclear]) (by rwa [ne_eq, hret]), bytes_ofBytes,
        if_neg (by tauto)]

/-- The line of a byte of data. -/
theorem data_emits (b : UInt8) : Emits ("DB 0x" ++ hex 2 b.toNat) [b] := by
  have hnumber : number .byte ("0x" ++ hex 2 b.toNat).toList = .ok b.toNat := by
    rw [toList_hex]
    exact number_eq_ok_iff.mpr ⟨numeral?_hex 2 b.toNat, Nat.le_of_lt_succ b.toNat_lt⟩
  have hline : "DB 0x" ++ hex 2 b.toNat =
      sentence Operation.db.name ["0x" ++ hex 2 b.toNat] := by
    rw [← String.toList_inj]
    simp [sentence, Operation.name]
  rw [hline]
  refine .of_sentence .db (List.forall_mem_singleton.mpr (solid_hex 2 b.toNat)) ?_
  refine (encode_db rfl).mpr ⟨[b.toNat], ?_, by simp⟩
  rw [List.map_cons, List.mapM_cons, hnumber]
  rfl

/-- The column of a listing comes to what is reread, line by line. -/
theorem lines_emit {address : Nat} {rom : List UInt8} (h : address + rom.length ≤ 0x1000) :
    ∃ bss, List.Forall₂ Emits ((lines address rom).map fun l => column l.render) bss ∧
      bss.flatten = reread rom := by
  induction address, rom using lines.induct with
  | case1 => exact ⟨[], .nil, rfl⟩
  | case2 address b =>
    have hraw : (hex 2 b.toNat ++ "  ").toList.length = 4 := by
      have hb : b.toNat ≤ 0xFF := Nat.le_of_lt_succ b.toNat_lt
      have hlength : (hexChars hexDigit 2 b.toNat).length = 2 :=
        length_hexChars hexDigit hb (by decide)
      simp [hex, hlength]
    have ha : address < 0x1000 := by
      rw [List.length_singleton] at h
      omega
    have hline := emits_column (l := ⟨address, hex 2 b.toNat ++ "  ", "DB 0x" ++ hex 2 b.toNat⟩)
      ha hraw (data_emits b)
    exact ⟨[[b]], .cons hline .nil, rfl⟩
  | case3 address b c rest ih =>
    rw [List.length_cons, List.length_cons] at h
    obtain ⟨bss, hemits, hbss⟩ := ih (by omega)
    obtain ⟨v, hv, hlt⟩ := (Word.ofBytes_isShort b c).exists_natCast
    have hraw : (hex 4 (Word.ofBytes [b, c]).value).toList.length = 4 := by
      have hlength : (hexChars hexDigit 4 v).length = 4 :=
        length_hexChars hexDigit (Nat.le_of_lt_succ hlt : v ≤ 0xFFFF) (by decide)
      simp [hex, hv, hlength]
    have ha : address < 0x1000 := by omega
    have hline := emits_column
      (l := ⟨address, hex 4 (Word.ofBytes [b, c]).value, (Word.ofBytes [b, c]).mnemonic⟩)
      ha hraw (mnemonic_emits (Word.ofBytes_isShort b c))
    refine ⟨(Word.ofBytes [b, c]).shown.bytes :: bss, .cons hline hemits, ?_⟩
    rw [List.flatten_cons, hbss, bytes_shown]
    rfl

/-! ### Programs -/

/-- Less than two bytes are no word. -/
theorem reread_of_short {rest : List UInt8} (h : ∀ b c rest', rest = b :: c :: rest' → False) :
    reread rest = rest := by
  match rest, h with
  | [], _ => rfl
  | [_], _ => rfl
  | b :: c :: rest', h => exact (h b c rest' rfl).elim

theorem length_reread (rom : List UInt8) : (reread rom).length = rom.length := by
  induction rom using reread.induct with
  | case1 b c rest ih => simp [reread, ih]
  | case2 rest h => rw [reread_of_short h]

/-- Where a program does not come back as it was: at the second digit of a word of family `0` that
is an instruction. -/
theorem reread_eq_self_iff {rom : List UInt8} :
    reread rom = rom ↔ ∀ k b c, rom[2 * k]? = some b → rom[2 * k + 1]? = some c →
      c = 0xE0 ∨ c = 0xEE → b.toNat < 16 → b = 0 := by
  induction rom using reread.induct with
  | case1 b c rest ih =>
    rw [reread, List.cons.injEq, List.cons.injEq, ih]
    constructor
    · rintro ⟨hfirst, -, hrest⟩ (_ | k) b' c' hb hc hlast hlt
      · obtain rfl := Option.some.inj hb
        obtain rfl := Option.some.inj hc
        rw [if_pos ⟨hlt, hlast⟩] at hfirst
        exact hfirst.symm
      · exact hrest k b' c' hb hc hlast hlt
    · intro h
      refine ⟨?_, rfl, fun k => h (k + 1)⟩
      split
      · next hcond => exact (h 0 b c rfl rfl hcond.2 hcond.1).symm
      · rfl
  | case2 rest h =>
    refine iff_of_true (reread_of_short h) fun k b c _ hc => ?_
    match rest, h with
    | [], _ => cases hc
    | [_], _ => cases hc
    | b :: c :: rest', h => exact (h b c rest' rfl).elim

/-- The mnemonic column of the listing of any program that fits is assembled, to as many bytes as
there were. They are the bytes of the program exactly if none of its words is a `CLS` or `RET` whose
second digit is not zero. -/
theorem listing_assembles {rom : List UInt8} (h : rom.length ≤ 3584) :
    assemble (mnemonics rom) = .ok (reread rom) ∧
      (reread rom = rom ↔ ∀ k b c, rom[2 * k]? = some b → rom[2 * k + 1]? = some c →
        c = 0xE0 ∨ c = 0xEE → b.toNat < 16 → b = 0) := by
  refine ⟨?_, reread_eq_self_iff⟩
  have hfit : programStart + rom.length ≤ 0x1000 := by
    rw [programStart]
    omega
  obtain ⟨bss, hemits, hbss⟩ := lines_emit hfit
  have hshort : ¬maxProgramSize < bss.flatten.length := by
    rw [hbss, length_reread, maxProgramSize, memorySize, programStart]
    omega
  rw [mnemonics, assemble_lines hemits, if_neg hshort, hbss]

/-- A `CLS` whose second digit is not zero is listed as `CLS`, and that comes back as `00E0`. -/
theorem listing_changed : [0x01, 0xE0].length ≤ 3584 ∧
    assemble (mnemonics [0x01, 0xE0]) = .ok [0x00, 0xE0] ∧
    assemble (mnemonics [0x01, 0xE0]) ≠ .ok [0x01, 0xE0] := by
  decide +kernel

/-- A word that is no instruction and a last odd byte come back. -/
theorem listing_assembles_odd_data :
    assemble (mnemonics [0x94, 0x71, 0x0E]) = .ok [0x94, 0x71, 0x0E] :=
  (listing_assembles (by decide)).1

end Listing

end Chip8
