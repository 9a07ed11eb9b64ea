import Chip8.Proofs.Text.Cut
import Chip8.Text.Hex
import Chip8.Text.Numeral

/-!
# Numbers that are written and read

A number that is written in base sixteen after `0x`, with any width, is read as itself. The digits
are followed as a list of their values: what is written is that list under `hexDigit`, and what is
read is that list put together by `ofDigits`. Zeros in front do not change it.

The same for the numbers of one digit in base sixteen when they are written in base ten.

## Main results

* `exists_hexChars` — the digits that are written
* `numeral?_hex` — and the number they are read as
-/

namespace Chip8.Text

/-! ### Digits -/

theorem digitValue?_hexDigit : ∀ d < 16, digitValue? 16 (hexDigit d) = some d := by decide

theorem upperChar_hexDigit : ∀ d < 16, upperChar (hexDigit d) = [hexDigit d] := by decide

theorem isAlphanum_hexDigit : ∀ d < 16, (hexDigit d).isAlphanum = true := by decide

theorem ofDigits_append_singleton (base : Nat) (ds : List Nat) (d : Nat) :
    ofDigits base (ds ++ [d]) = ofDigits base ds * base + d := by
  simp [ofDigits]

/-- Zeros in front do not count. -/
theorem ofDigits_replicate_append (base k : Nat) (ds : List Nat) :
    ofDigits base (List.replicate k 0 ++ ds) = ofDigits base ds := by
  induction k with
  | zero => rfl
  | succ k ih => simpa [ofDigits, List.replicate_succ] using ih

/-- `ds` are digits of `n` in base sixteen, and there is at least one. -/
structure HexDigits (n : Nat) (ds : List Nat) : Prop where
  ne_nil : ds ≠ []
  lt : ∀ d ∈ ds, d < 16
  value : ofDigits 16 ds = n

theorem hexDigits_of_lt {n : Nat} (h : n < 16) : HexDigits n [n] where
  ne_nil := List.cons_ne_nil n []
  lt := by simpa using h
  value := by simp [ofDigits]

/-- One digit more at the end. -/
theorem HexDigits.append {n : Nat} {ds : List Nat} (h : HexDigits (n / 16) ds) :
    HexDigits n (ds ++ [n % 16]) where
  ne_nil := by simp
  lt := by
    intro d hd
    rcases List.mem_append.mp hd with hd | hd
    · exact h.lt d hd
    · rw [List.mem_singleton.mp hd]
      exact Nat.mod_lt n (by decide)
  value := by
    rw [ofDigits_append_singleton, h.value]
    omega

theorem HexDigits.replicate {n : Nat} {ds : List Nat} (h : HexDigits n ds) (k : Nat) :
    HexDigits n (List.replicate k 0 ++ ds) where
  ne_nil := by simp [h.ne_nil]
  lt := by
    intro d hd
    rcases List.mem_append.mp hd with hd | hd
    · rw [List.eq_of_mem_replicate hd]
      decide
    · exact h.lt d hd
  value := by rw [ofDigits_replicate_append, h.value]

theorem log2_of_le {n : Nat} (h : 16 ≤ n) : n.log2 = (n / 16).log2 + 4 := by
  rw [Nat.log2_def n, if_pos (by omega), Nat.log2_def (n / 2), if_pos (by omega),
    Nat.log2_def (n / 2 / 2), if_pos (by omega), Nat.log2_def (n / 2 / 2 / 2), if_pos (by omega),
    Nat.div_div_eq_div_mul, Nat.div_div_eq_div_mul, Nat.div_div_eq_div_mul]

theorem log2_le_log2 {n m : Nat} (h : n ≤ m) : n.log2 ≤ m.log2 := by
  obtain rfl | hpos := Nat.eq_zero_or_pos n
  · exact Nat.zero_le _
  · exact Nat.le_of_lt_succ
      ((Nat.log2_lt (Nat.ne_of_gt hpos)).mpr (Nat.lt_of_le_of_lt h Nat.lt_log2_self))

/-- Digits are enough if they have as many bits as the number. -/
theorem exists_hexDigitsBelow (digit : Nat → Char) {k n : Nat} (h : n.log2 / 4 ≤ k) :
    ∃ ds, hexDigitsBelow digit k n = ds.map digit ∧ HexDigits n ds := by
  induction k generalizing n with
  | zero =>
    have hn : n < 16 := by
      by_cases hle : 16 ≤ n
      · have := log2_of_le hle
        omega
      · omega
    exact ⟨[n], by rw [hexDigitsBelow, Nat.mod_eq_of_lt hn]; rfl, hexDigits_of_lt hn⟩
  | succ k ih =>
    rw [hexDigitsBelow]
    by_cases hn : n < 16
    · rw [if_pos hn]
      exact ⟨[n], rfl, hexDigits_of_lt hn⟩
    · rw [if_neg hn]
      have hlog := log2_of_le (Nat.le_of_not_lt hn)
      obtain ⟨ds, hds, hd⟩ := ih (n := n / 16) (by omega)
      exact ⟨ds ++ [n % 16], by rw [hds, List.map_append]; rfl, hd.append⟩

/-- What is written are digits of the number. -/
theorem exists_hexChars (width n : Nat) :
    ∃ ds, hexChars hexDigit width n = ds.map hexDigit ∧ HexDigits n ds := by
  obtain ⟨ds, hds, hd⟩ := exists_hexDigitsBelow hexDigit (Nat.le_refl (n.log2 / 4))
  have hchars : hexChars hexDigit width n = padLeft '0' width (ds.map hexDigit) := by
    rw [hexChars, if_neg (by omega), Int.natAbs_natCast, hexDigits, hds]
  refine ⟨List.replicate (width - ds.length) 0 ++ ds, ?_, hd.replicate _⟩
  rw [hchars, padLeft, List.map_append, List.map_replicate, List.length_map]
  rfl

theorem length_hexDigitsBelow_le (digit : Nat → Char) {k n width : Nat} (h : n.log2 / 4 ≤ width) :
    (hexDigitsBelow digit k n).length ≤ width + 1 := by
  induction k generalizing n width with
  | zero => simp [hexDigitsBelow]
  | succ k ih =>
    rw [hexDigitsBelow]
    by_cases hn : n < 16
    · simp [if_pos hn]
    · have hlog := log2_of_le (Nat.le_of_not_lt hn)
      have hrest := ih (n := n / 16) (Nat.le_refl _)
      rw [if_neg hn, List.length_append, List.length_singleton]
      omega

/-- All numbers up to `m` have the same width if that is enough for `m`. -/
theorem length_hexChars (digit : Nat → Char) {width n m : Nat} (h : n ≤ m)
    (hm : m.log2 / 4 ≤ width) : (hexChars digit (width + 1) n).length = width + 1 := by
  have hlog := log2_le_log2 h
  have hle : (hexDigits digit n).length ≤ width + 1 := length_hexDigitsBelow_le digit (by omega)
  rw [hexChars, if_neg (by omega), Int.natAbs_natCast, padLeft, List.length_append,
    List.length_replicate]
  omega

/-- All that is written in base sixteen are letters and digits. -/
theorem isAlphanum_of_mem_hexChars {width n : Nat} {c : Char} (h : c ∈ hexChars hexDigit width n) :
    c.isAlphanum = true := by
  obtain ⟨ds, hds, hd⟩ := exists_hexChars width n
  rw [hds] at h
  obtain ⟨d, hmem, rfl⟩ := List.mem_map.mp h
  exact isAlphanum_hexDigit d (hd.lt d hmem)

/-! ### Reading -/

/-- Letters and digits by their codes. -/
theorem isAlphanum_iff {c : Char} :
    c.isAlphanum = true ↔
      0x41 ≤ c.toNat ∧ c.toNat ≤ 0x5A ∨ 0x61 ≤ c.toNat ∧ c.toNat ≤ 0x7A ∨
        0x30 ≤ c.toNat ∧ c.toNat ≤ 0x39 := by
  have hdef : c.isAlphanum = ((decide (c.val ≥ 'A'.val ∧ c.val ≤ 'Z'.val) ||
      (c.val ≥ 'a'.val && c.val ≤ 'z'.val)) || (c.val ≥ '0'.val && c.val ≤ '9'.val)) := rfl
  simp [hdef, UInt32.le_iff_toNat_le, or_assoc]

theorem isBlank_of_isAlphanum {c : Char} (h : c.isAlphanum = true) : isBlank c = false := by
  rw [isAlphanum_iff] at h
  simp only [isBlank, Bool.or_eq_false_iff, Bool.and_eq_false_iff, decide_eq_false_iff_not,
    beq_eq_false_iff_ne]
  omega

theorem upper_map_hexDigit {ds : List Nat} (h : ∀ d ∈ ds, d < 16) :
    upper (ds.map hexDigit) = ds.map hexDigit := by
  induction ds with
  | nil => rfl
  | cons d ds ih =>
    rw [List.forall_mem_cons] at h
    rw [List.map_cons, upper_cons, upperChar_hexDigit d h.1, ih h.2, List.singleton_append]

theorem not_mem_map_hexDigit {ds : List Nat} (h : ∀ d ∈ ds, d < 16) : '_' ∉ ds.map hexDigit := by
  intro hm
  obtain ⟨d, hd, he⟩ := List.mem_map.mp hm
  have := isAlphanum_hexDigit d (h d hd)
  rw [he] at this
  exact absurd this (by decide)

theorem mapM_digitValue?_hexDigit {ds : List Nat} (h : ∀ d ∈ ds, d < 16) :
    (ds.map hexDigit).mapM (digitValue? 16) = some ds := by
  induction ds with
  | nil => rfl
  | cons d ds ih =>
    rw [List.forall_mem_cons] at h
    simp [List.mapM_cons, digitValue?_hexDigit d h.1, ih h.2]

theorem digits?_map_hexDigit {n : Nat} {ds : List Nat} (h : HexDigits n ds) :
    digits? 16 (ds.map hexDigit) = some ds := by
  have hmark := not_mem_map_hexDigit h.lt
  have hpieces : pieces '_' (ds.map hexDigit) = [ds.map hexDigit] := pieces_of_not_mem hmark
  have hfilter : (ds.map hexDigit).filter (· ≠ '_') = ds.map hexDigit :=
    List.filter_eq_self.mpr fun c hc => by simpa using fun he : c = '_' => hmark (he ▸ hc)
  rw [digits?, hpieces, hfilter, mapM_digitValue?_hexDigit h.lt, if_neg (by simp [h.ne_nil])]

/-- Digits that follow the mark of a base at once. -/
theorem marked?_eq {base : Nat} {cs : List Char} (h : '_' ∉ cs) :
    marked? base cs = (digits? base cs).map fun ds => Int.ofNat (ofDigits base ds) := by
  unfold marked?
  split
  · next ds => exact absurd List.mem_cons_self h
  · rfl

/-- A number written in base sixteen is read as itself. -/
theorem numeral?_hex (width n : Nat) :
    numeral? ('0' :: 'x' :: hexChars hexDigit width n) = some (n : Int) := by
  obtain ⟨ds, hds, hd⟩ := exists_hexChars width n
  have hstrip : strip ('0' :: 'x' :: hexChars hexDigit width n) =
      '0' :: 'x' :: hexChars hexDigit width n := by
    refine strip_of_all fun c hc => ?_
    simp only [List.mem_cons] at hc
    rcases hc with rfl | rfl | hc
    · decide
    · decide
    · exact isBlank_of_isAlphanum (isAlphanum_of_mem_hexChars hc)
  have hupper : upper ('0' :: 'x' :: hexChars hexDigit width n) =
      '0' :: 'X' :: ds.map hexDigit := by
    rw [upper_cons, upper_cons, hds, upper_map_hexDigit hd.lt]
    rfl
  rw [numeral?, hstrip, hupper]
  change marked? 16 (ds.map hexDigit) = _
  rw [marked?_eq (not_mem_map_hexDigit hd.lt), digits?_map_hexDigit hd, Option.map_some, hd.value]
  rfl

/-- So is a number of one digit when it is written in base ten. -/
theorem numeral?_toString :
    ∀ n : Nat, n < 16 → numeral? (toString n).toList = some (n : Int) := by decide

end Chip8.Text
