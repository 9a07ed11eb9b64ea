import Mathlib.Data.List.Induction
import Mathlib.Data.Nat.Digits.Defs
import Chip8.Proofs.Text.Numeral

/-!
# Numbers in three bases

A number can be written in base sixteen, two or ten, in small letters or capitals, with zeros in
front and with underscores between its digits. However it is written, it is read as the same number.

What is written is described without a reader: characters that stand for digits, a run of them with
the list of their values, and the number that has these digits. The digits of every script count,
and a run may mix them.

## What decides the matter

Case is dropped before the mark of a base is looked for, and `B` is both a mark and a digit. It is
never mistaken. A mark stands behind the first zero, where a run of base ten has a decimal digit or
an underscore, and those are their own capitals. A run of base sixteen is read behind its mark only.

## Main definitions

* `IsDigit`, `DigitRun` — characters that stand for digits, and runs of them
* `Spelling` — the ways to write a number

## Main results

* `numeral?_of_spelling` — they are all read as the number
* `spelling_hexChars` — what listings write is one of them
-/

namespace Chip8.Text

variable {base n d z : Nat} {c u : Char} {ds : List Nat} {cs us : List Char}

/-! ### Decimal digits -/

/-- Whether the run of digits from `z` on has nothing in common with the codes from `first` to
`last`. -/
def runApart (z first last : Nat) : Bool :=
  last.blt z || (z + 9).blt first

theorem not_mem_of_runApart {first last : Nat} (h : runApart z first last = true) (hd : d < 10) :
    ¬ (first ≤ z + d ∧ z + d ≤ last) := by
  simp only [runApart, Nat.blt_eq, Bool.or_eq_true] at h
  omega

/-- No run of digits meets the letters that have another capital, or the blanks. Only one run is in
ASCII. -/
theorem runs_apart : ∀ z ∈ digitZeros, (z = 0x30 ∨ 0x80 ≤ z) ∧
    (longCapitals.all fun p => runApart z p.1 p.1) = true ∧
    (caseRuns.all fun r => runApart z r.first r.last) = true ∧
    (blankCodes.all fun n => runApart z n n) = true := by
  decide +kernel

theorem exists_zero (h : decimalValue? c = some d) :
    ∃ z ∈ digitZeros, d < 10 ∧ c.toNat = z + d := by
  obtain ⟨z, hz, hd⟩ := Option.map_eq_some_iff.mp h
  have hrange := List.find?_some hz
  simp only [Bool.and_eq_true, decide_eq_true_eq] at hrange
  exact ⟨z, List.mem_of_find?_eq_some hz, by omega, by omega⟩

/-- Decimal digits have no case. -/
theorem upperChar_of_decimalValue? (h : decimalValue? c = some d) : upperChar c = [c] := by
  obtain ⟨z, hz, hd, hc⟩ := exists_zero h
  obtain ⟨hascii, hlong, hruns, -⟩ := runs_apart z hz
  rw [List.all_eq_true] at hlong hruns
  rw [upperChar]
  split
  · have hall : ∀ e < 10, (Char.ofNat (0x30 + e)).toUpper = Char.ofNat (0x30 + e) := by decide
    have hcode : 0x30 + d = c.toNat := by omega
    rw [← Char.ofNat_toNat c, ← hcode, hall d hd]
  · have hlookup : longCapitals.lookup c.toNat = none := by
      refine List.lookup_eq_none_iff.mpr fun p hp => bne_iff_ne.mpr fun he => ?_
      exact not_mem_of_runApart (hlong p hp) hd (by omega)
    have hfind : caseRuns.find? (·.covers c.toNat) = none := by
      refine List.find?_eq_none.mpr fun r hr hcovers => ?_
      simp only [CaseRun.covers, Bool.and_eq_true, decide_eq_true_eq] at hcovers
      exact not_mem_of_runApart (hruns r hr) hd (by omega)
    rw [hlookup, hfind]

/-- What a decimal digit looks like to a reader that is after letters, marks, signs and blanks. -/
structure IsFigure (c : Char) : Prop where
  capital : upperChar c = [c]
  ascii : c.toNat < 0x80 → 0x30 ≤ c.toNat ∧ c.toNat ≤ 0x39
  solid : isBlank c = false

theorem isFigure_of_decimalValue? (h : decimalValue? c = some d) : IsFigure c := by
  obtain ⟨z, hz, hd, hc⟩ := exists_zero h
  obtain ⟨hascii, -, -, hblank⟩ := runs_apart z hz
  rw [List.all_eq_true] at hblank
  refine ⟨upperChar_of_decimalValue? h, by omega, Bool.eq_false_iff.mpr fun hb => ?_⟩
  exact not_mem_of_runApart (hblank _ (toNat_mem_blankCodes hb)) hd (by omega)

theorem IsFigure.ne (h : IsFigure c) (hu : u.toNat < 0x80 ∧ ¬ (0x30 ≤ u.toNat ∧ u.toNat ≤ 0x39)) :
    c ≠ u := by
  rintro rfl
  exact hu.2 (h.ascii hu.1)

theorem IsFigure.isSeparator (h : IsFigure c) : isSeparator c = false := by
  have hcode := h.ascii
  simp only [Text.isSeparator, Bool.and_eq_false_iff, decide_eq_false_iff_not]
  omega

/-! ### Digits -/

/-- A character that stands for a digit. -/
inductive IsDigit (c : Char) (d : Nat) : Prop
  /-- Zero to nine, in any script. -/
  | decimal (h : decimalValue? c = some d)
  /-- `A` to `F`. -/
  | capital (low : 10 ≤ d) (high : d < 16) (h : c = hexDigit d)
  /-- `a` to `f`. -/
  | small (low : 10 ≤ d) (high : d < 16) (h : c = smallHexDigit d)

/-- A run of digits with their values. One underscore may stand between two digits. -/
inductive DigitRun (base : Nat) : List Nat → List Char → Prop
  | last {c : Char} {d : Nat} (digit : IsDigit c d) (lt : d < base) : DigitRun base [d] [c]
  | cons {c : Char} {d : Nat} {ds : List Nat} {cs : List Char} (digit : IsDigit c d) (lt : d < base)
    (rest : DigitRun base ds cs) : DigitRun base (d :: ds) (c :: cs)
  | underscore {c : Char} {d : Nat} {ds : List Nat} {cs : List Char} (digit : IsDigit c d)
    (lt : d < base) (rest : DigitRun base ds cs) : DigitRun base (d :: ds) (c :: '_' :: cs)

/-- The ways to write a number. The first digit is the most significant one. -/
inductive Spelling (n : Nat) : List Char → Prop
  | hexadecimal {x : Char} {ds : List Nat} {cs : List Char} (mark : x = 'x' ∨ x = 'X')
    (digits : DigitRun 16 ds cs) (value : Nat.ofDigits 16 ds.reverse = n) :
    Spelling n ('0' :: x :: cs)
  | binary {b : Char} {ds : List Nat} {cs : List Char} (mark : b = 'b' ∨ b = 'B')
    (digits : DigitRun 2 ds cs) (value : Nat.ofDigits 2 ds.reverse = n) :
    Spelling n ('0' :: b :: cs)
  | decimal {ds : List Nat} {cs : List Char} (digits : DigitRun 10 ds cs)
    (length : ds.length ≤ 4300) (value : Nat.ofDigits 10 ds.reverse = n) : Spelling n cs

theorem upperChar_smallHexDigit : ∀ d < 16, upperChar (smallHexDigit d) = [hexDigit d] := by
  decide

theorem hexDigit_ne_underscore : ∀ d < 16, hexDigit d ≠ '_' := by decide

/-- A letter stands for its value in every base that has it. -/
theorem digitValue?_letter (low : 10 ≤ d) (high : d < 16) (hlt : d < base) :
    digitValue? base (hexDigit d) = some d := by
  have hall : ∀ d < 16, 10 ≤ d → ('A'.toNat ≤ (hexDigit d).toNat ∧
      (hexDigit d).toNat ≤ 'F'.toNat) ∧ (hexDigit d).toNat - 'A'.toNat + 10 = d := by decide
  obtain ⟨hletter, hvalue⟩ := hall d high low
  rw [digitValue?, if_pos hletter, hvalue]
  exact Option.filter_some_pos (decide_eq_true hlt)

/-- The capital of a digit is a digit of the same value, and nothing else. -/
theorem IsDigit.exists_capital (h : IsDigit c d) :
    ∃ u, upperChar c = [u] ∧ u ≠ '_' ∧ ∀ base, d < base → digitValue? base u = some d := by
  cases h with
  | decimal h =>
    have hfigure := isFigure_of_decimalValue? h
    refine ⟨c, hfigure.capital, hfigure.ne (by decide), fun base hlt => ?_⟩
    have hno : ¬ ('A'.toNat ≤ c.toNat ∧ c.toNat ≤ 'F'.toNat) := by
      have hcode := hfigure.ascii
      change ¬ (0x41 ≤ c.toNat ∧ c.toNat ≤ 0x46)
      omega
    rw [digitValue?, if_neg hno, h]
    exact Option.filter_some_pos (decide_eq_true hlt)
  | capital low high h =>
    exact ⟨hexDigit d, h ▸ upperChar_hexDigit d high, hexDigit_ne_underscore d high,
      fun base hlt => digitValue?_letter low high hlt⟩
  | small low high h =>
    exact ⟨hexDigit d, h ▸ upperChar_smallHexDigit d high, hexDigit_ne_underscore d high,
      fun base hlt => digitValue?_letter low high hlt⟩

theorem IsDigit.isFigure (h : IsDigit c d) (hd : d < 10) : IsFigure c := by
  cases h with
  | decimal h => exact isFigure_of_decimalValue? h
  | capital low | small low => exact absurd hd (Nat.not_lt.mpr low)

/-- A line is not cut at a digit. -/
theorem IsDigit.whole (h : IsDigit c d) : isBlank c = false ∧ c ≠ ',' ∧ c ≠ ':' ∧ c ≠ ';' := by
  cases h with
  | decimal h =>
    have hfigure := isFigure_of_decimalValue? h
    exact ⟨hfigure.solid, hfigure.ne (by decide), hfigure.ne (by decide), hfigure.ne (by decide)⟩
  | capital low high h =>
    have hall : ∀ d < 16, isBlank (hexDigit d) = false ∧ hexDigit d ≠ ',' ∧ hexDigit d ≠ ':' ∧
        hexDigit d ≠ ';' := by decide
    exact h ▸ hall d high
  | small low high h =>
    have hall : ∀ d < 16, isBlank (smallHexDigit d) = false ∧ smallHexDigit d ≠ ',' ∧
        smallHexDigit d ≠ ':' ∧ smallHexDigit d ≠ ';' := by decide
    exact h ▸ hall d high

/-! ### Runs of digits -/

theorem digits?_eq_some_iff :
    digits? base us = some ds ↔ (pieces '_' us).any List.isEmpty = false ∧
      (us.filter (· ≠ '_')).mapM (digitValue? base) = some ds := by
  rw [digits?]
  cases (pieces '_' us).any List.isEmpty <;> simp

/-- A digit more in front. -/
theorem digits?_cons (hu : digitValue? base u = some d) (hmark : u ≠ '_')
    (h : digits? base us = some ds) : digits? base (u :: us) = some (d :: ds) := by
  obtain ⟨hfull, hvalues⟩ := digits?_eq_some_iff.mp h
  refine digits?_eq_some_iff.mpr ⟨?_, ?_⟩
  · obtain ⟨p, ps, hp⟩ := List.exists_cons_of_ne_nil (pieces_ne_nil '_' us)
    rw [hp, List.any_cons, Bool.or_eq_false_iff] at hfull
    rw [pieces_cons, hp, cutAt, if_neg hmark, List.any_cons, hfull.2]
    rfl
  · rw [List.filter_cons_of_pos (by simpa using hmark), List.mapM_cons, hu, hvalues]
    rfl

/-- A digit and an underscore more in front. -/
theorem digits?_cons_underscore (hu : digitValue? base u = some d) (hmark : u ≠ '_')
    (h : digits? base us = some ds) : digits? base (u :: '_' :: us) = some (d :: ds) := by
  obtain ⟨hfull, hvalues⟩ := digits?_eq_some_iff.mp h
  refine digits?_eq_some_iff.mpr ⟨?_, ?_⟩
  · have hpieces : pieces '_' ([u] ++ '_' :: us) = [u] :: pieces '_' us :=
      pieces_append_cons (by simpa using hmark.symm) us
    rw [List.singleton_append] at hpieces
    rw [hpieces, List.any_cons, hfull]
    rfl
  · rw [List.filter_cons_of_pos (by simpa using hmark), List.filter_cons_of_neg (by simp),
      List.mapM_cons, hu, hvalues]
    rfl

/-- The capitals of a run are read as the values of its digits. -/
theorem DigitRun.digits? (h : DigitRun base ds cs) : digits? base (upper cs) = some ds := by
  induction h with
  | last digit lt =>
    obtain ⟨u, hu, hmark, hvalue⟩ := digit.exists_capital
    rw [upper_cons, hu, upper_nil, List.append_nil]
    exact digits?_eq_some_iff.mpr ⟨by simp [cutAt, hmark], by simp [hmark, hvalue base lt]⟩
  | cons digit lt rest ih =>
    obtain ⟨u, hu, hmark, hvalue⟩ := digit.exists_capital
    rw [upper_cons, hu, List.singleton_append]
    exact digits?_cons (hvalue base lt) hmark ih
  | underscore digit lt rest ih =>
    obtain ⟨u, hu, hmark, hvalue⟩ := digit.exists_capital
    rw [upper_cons, hu, upper_cons, show upperChar '_' = ['_'] from rfl]
    exact digits?_cons_underscore (hvalue base lt) hmark ih

theorem DigitRun.mem (h : DigitRun base ds cs) : ∀ c ∈ cs, c = '_' ∨ ∃ d < base, IsDigit c d := by
  induction h with
  | last digit lt => exact List.forall_mem_singleton.mpr (.inr ⟨_, lt, digit⟩)
  | cons digit lt rest ih => exact List.forall_mem_cons.mpr ⟨.inr ⟨_, lt, digit⟩, ih⟩
  | underscore digit lt rest ih =>
    exact List.forall_mem_cons.mpr ⟨.inr ⟨_, lt, digit⟩, List.forall_mem_cons.mpr ⟨.inl rfl, ih⟩⟩

/-- A run starts with a digit. -/
theorem DigitRun.exists_cons (h : DigitRun base ds cs) :
    ∃ c rest d, cs = c :: rest ∧ d < base ∧ IsDigit c d := by
  cases h with
  | last digit lt => exact ⟨_, _, _, rfl, lt, digit⟩
  | cons digit lt => exact ⟨_, _, _, rfl, lt, digit⟩
  | underscore digit lt => exact ⟨_, _, _, rfl, lt, digit⟩

/-- A line is cut neither at a digit nor at an underscore. -/
theorem DigitRun.whole (h : DigitRun base ds cs) :
    ∀ c ∈ cs, isBlank c = false ∧ c ≠ ',' ∧ c ≠ ':' ∧ c ≠ ';' := by
  intro c hc
  obtain rfl | ⟨d, -, digit⟩ := h.mem c hc
  · decide
  · exact digit.whole

theorem DigitRun.strip_eq (h : DigitRun base ds cs) : strip cs = cs :=
  strip_of_all fun c hc => (h.whole c hc).1

theorem DigitRun.isFigure (h : DigitRun 10 ds cs) : ∀ c ∈ cs, c = '_' ∨ IsFigure c := by
  intro c hc
  obtain rfl | ⟨d, hd, digit⟩ := h.mem c hc
  · exact .inl rfl
  · exact .inr (digit.isFigure hd)

/-! ### Numbers -/

/-- The first digit is the most significant one. -/
theorem ofDigits_eq (base : Nat) (ds : List Nat) :
    ofDigits base ds = Nat.ofDigits base ds.reverse := by
  induction ds using List.reverseRecOn with
  | nil => rfl
  | append_singleton ds d ih =>
    rw [ofDigits_append_singleton, ih, List.reverse_append, List.reverse_singleton,
      List.singleton_append, Nat.ofDigits_cons, Nat.add_comm, Nat.mul_comm]

theorem marked?_of_digits? (h : digits? base us = some ds) :
    marked? base us = some (Int.ofNat (ofDigits base ds)) := by
  unfold marked?
  split
  · next rest =>
    -- There is nothing before an underscore in front.
    obtain ⟨p, ps, hp⟩ := List.exists_cons_of_ne_nil (pieces_ne_nil '_' rest)
    have hfull := (digits?_eq_some_iff.mp h).1
    rw [pieces_cons, hp, cutAt, if_pos rfl] at hfull
    cases hfull
  · show (digits? base us).map _ = _
    rw [h]
    rfl

/-- A number is read behind the mark of its base. -/
theorem numeral?_of_marked {x y : Char} (hsolid : isBlank x = false) (hx : upperChar x = [y])
    (hy : y = 'X' ∧ base = 16 ∨ y = 'B' ∧ base = 2) (h : DigitRun base ds cs)
    (hvalue : Nat.ofDigits base ds.reverse = n) : numeral? ('0' :: x :: cs) = some (n : Int) := by
  have hstrip : strip ('0' :: x :: cs) = '0' :: x :: cs := by
    refine strip_of_all ?_
    rw [List.forall_mem_cons, List.forall_mem_cons]
    exact ⟨rfl, hsolid, fun c hc => (h.whole c hc).1⟩
  have hupper : upper ('0' :: x :: cs) = '0' :: y :: upper cs := by
    rw [upper_cons, upper_cons, hx]
    rfl
  have hread : marked? base (upper cs) = some (n : Int) := by
    rw [marked?_of_digits? h.digits?, ofDigits_eq, hvalue]
    rfl
  rw [numeral?, hstrip, hupper]
  obtain ⟨rfl, rfl⟩ | ⟨rfl, rfl⟩ := hy
  · exact hread
  · exact hread

theorem upper_eq_self (h : ∀ u ∈ cs, upperChar u = [u]) : upper cs = cs := by
  induction cs with
  | nil => rfl
  | cons c cs ih =>
    rw [List.forall_mem_cons] at h
    rw [upper_cons, h.1, ih h.2, List.singleton_append]

/-- A run of base ten is its own capitals. -/
theorem DigitRun.upper_eq (h : DigitRun 10 ds cs) : upper cs = cs := by
  refine upper_eq_self fun u hu => ?_
  obtain rfl | hfigure := h.isFigure u hu
  · rfl
  · exact hfigure.capital

theorem decimal?_of_run (h : DigitRun 10 ds cs) (hlength : ds.length ≤ maxDecimalDigits)
    (hvalue : Nat.ofDigits 10 ds.reverse = n) : decimal? cs = some (n : Int) := by
  obtain ⟨c, rest, d, rfl, hd, digit⟩ := h.exists_cons
  have hc : IsFigure c := digit.isFigure hd
  have hseparator : (c :: rest).any isSeparator = false := by
    refine List.any_eq_false.mpr fun u hu => ?_
    obtain rfl | hfigure := h.isFigure u hu
    · decide
    · simp [hfigure.isSeparator]
  have hread : unsignedDecimal? (c :: rest) = some n := by
    have hdigits := h.digits?
    rw [h.upper_eq] at hdigits
    rw [unsignedDecimal?, hdigits, ← hvalue, ← ofDigits_eq]
    exact if_pos hlength
  rw [decimal?, hseparator, if_neg Bool.false_ne_true, h.strip_eq]
  split
  · next heq => exact absurd (List.cons.inj heq).1 (hc.ne (by decide))
  · next heq => exact absurd (List.cons.inj heq).1 (hc.ne (by decide))
  · rw [hread]
    rfl

/-- A number without a mark is read in base ten. -/
theorem numeral?_of_run (h : DigitRun 10 ds cs) (hlength : ds.length ≤ maxDecimalDigits)
    (hvalue : Nat.ofDigits 10 ds.reverse = n) : numeral? cs = some (n : Int) := by
  -- No character is the mark of another base.
  have hmark : ∀ u ∈ cs, u ≠ 'X' ∧ u ≠ 'B' := by
    intro u hu
    obtain rfl | hfigure := h.isFigure u hu
    · decide
    · exact ⟨hfigure.ne (by decide), hfigure.ne (by decide)⟩
  rw [numeral?, h.strip_eq, h.upper_eq]
  split
  · exact absurd rfl (hmark 'X' (by simp)).1
  · exact absurd rfl (hmark 'B' (by simp)).2
  · exact decimal?_of_run h hlength hvalue

/-- However a number is written, it is read as itself. -/
theorem numeral?_of_spelling (h : Spelling n cs) : numeral? cs = some (n : Int) := by
  cases h with
  | @hexadecimal x ds cs mark digits value =>
    have hx : isBlank x = false ∧ upperChar x = ['X'] := by obtain rfl | rfl := mark <;> decide
    exact numeral?_of_marked hx.1 hx.2 (.inl ⟨rfl, rfl⟩) digits value
  | @binary b ds cs mark digits value =>
    have hb : isBlank b = false ∧ upperChar b = ['B'] := by obtain rfl | rfl := mark <;> decide
    exact numeral?_of_marked hb.1 hb.2 (.inr ⟨rfl, rfl⟩) digits value
  | decimal digits length value => exact numeral?_of_run digits length value

/-- A line is cut nowhere in a number. -/
theorem Spelling.whole (h : Spelling n cs) :
    cs ≠ [] ∧ ∀ c ∈ cs, isBlank c = false ∧ c ≠ ',' ∧ c ≠ ':' ∧ c ≠ ';' := by
  cases h with
  | @hexadecimal x ds cs mark digits =>
    refine ⟨List.cons_ne_nil _ _, ?_⟩
    rw [List.forall_mem_cons, List.forall_mem_cons]
    refine ⟨by decide, ?_, digits.whole⟩
    obtain rfl | rfl := mark <;> decide
  | @binary b ds cs mark digits =>
    refine ⟨List.cons_ne_nil _ _, ?_⟩
    rw [List.forall_mem_cons, List.forall_mem_cons]
    refine ⟨by decide, ?_, digits.whole⟩
    obtain rfl | rfl := mark <;> decide
  | decimal digits =>
    obtain ⟨c, rest, d, rfl, -⟩ := digits.exists_cons
    exact ⟨List.cons_ne_nil c rest, digits.whole⟩

/-! ### Written digits -/

theorem isDigit_hexDigit (hd : d < 16) : IsDigit (hexDigit d) d := by
  obtain hlow | hlow := Nat.lt_or_ge d 10
  · have hall : ∀ d < 10, decimalValue? (hexDigit d) = some d := by decide
    exact .decimal (hall d hlow)
  · exact .capital hlow hd rfl

theorem digitRun_map_hexDigit (hbase : base ≤ 16) (hne : ds ≠ []) (h : ∀ d ∈ ds, d < base) :
    DigitRun base ds (ds.map hexDigit) := by
  induction ds with
  | nil => exact absurd rfl hne
  | cons d ds ih =>
    rw [List.forall_mem_cons] at h
    have digit : IsDigit (hexDigit d) d := isDigit_hexDigit (Nat.lt_of_lt_of_le h.1 hbase)
    by_cases hds : ds = []
    · rw [hds]
      exact .last digit h.1
    · exact .cons digit h.1 (ih hds h.2)

/-- What listings write is a spelling, whatever the width. So every number has one. -/
theorem spelling_hexChars (width n : Nat) :
    Spelling n ('0' :: 'x' :: hexChars hexDigit width n) := by
  obtain ⟨ds, hds, hd⟩ := exists_hexChars width n
  rw [hds]
  refine .hexadecimal (.inl rfl) (digitRun_map_hexDigit (Nat.le_refl 16) hd.ne_nil hd.lt) ?_
  rw [← ofDigits_eq, hd.value]

end Chip8.Text
