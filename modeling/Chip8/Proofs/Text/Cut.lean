import Chip8.Text.Blank
import Chip8.Text.Uppercase
import Mathlib.Data.List.TakeWhile

/-!
# Cutting and stripping

`pieces` cuts a text at a separator and `joined` puts it together again. That cutting loses nothing
is said beside the definitions; here is the other direction, which needs pieces without separators.

Stripping is described by the ends of a text: a text that neither starts nor ends with a blank is
its own stripped form, and a blank in front does not count.

## Main results

* `pieces_append`, `length_pieces` — the pieces of two texts, and their number
* `pieces_joined` — pieces that were joined are found again
* `pieces_append_first`, `pieces_append_last` — more text at an end of a cut text
* `strip_eq_self`, `strip_append_left`, `strip_append_right` — what stripping leaves alone, and what
  it takes away
-/

namespace Chip8.Text

variable {sep c : Char} {as cs p : List Char} {ps : List (List Char)}

/-! ### Cutting -/

theorem cutAt_append (sep c : Char) (hne : ps ≠ []) (qs : List (List Char)) :
    cutAt sep c (ps ++ qs) = cutAt sep c ps ++ qs := by
  obtain ⟨p, ps, rfl⟩ := List.exists_cons_of_ne_nil hne
  rw [List.cons_append, cutAt, cutAt]
  split <;> rfl

/-- The pieces of two texts with a separator between them. -/
theorem pieces_append (sep : Char) (as bs : List Char) :
    pieces sep (as ++ sep :: bs) = pieces sep as ++ pieces sep bs := by
  induction as with
  | nil =>
    obtain ⟨q, qs, hq⟩ := List.exists_cons_of_ne_nil (pieces_ne_nil sep bs)
    rw [List.nil_append, pieces_cons, hq, cutAt, if_pos rfl]
    rfl
  | cons c as ih =>
    rw [List.cons_append, pieces_cons, pieces_cons, ih, cutAt_append sep c (pieces_ne_nil sep as)]

/-- There is one piece more than there are separators. -/
theorem length_pieces (sep : Char) (cs : List Char) :
    (pieces sep cs).length = cs.count sep + 1 := by
  induction cs with
  | nil => rfl
  | cons c cs ih =>
    obtain ⟨p, ps, hp⟩ := List.exists_cons_of_ne_nil (pieces_ne_nil sep cs)
    rw [hp] at ih
    rw [pieces_cons, hp, cutAt, List.count_cons]
    split
    · next h => simpa [h] using ih
    · next h => simpa [h] using ih

/-- A text without separators is one piece. -/
theorem pieces_of_not_mem (h : sep ∉ p) : pieces sep p = [p] := by
  induction p with
  | nil => rfl
  | cons c p ih =>
    rw [List.mem_cons, not_or] at h
    rw [pieces_cons, ih h.2, cutAt, if_neg (Ne.symm h.1)]

/-- A text up to the first separator is the first piece. -/
theorem pieces_append_cons (h : sep ∉ p) (cs : List Char) :
    pieces sep (p ++ sep :: cs) = p :: pieces sep cs := by
  rw [pieces_append, pieces_of_not_mem h, List.singleton_append]

/-- Pieces that were joined are found again. -/
theorem pieces_joined (hne : ps ≠ []) (h : ∀ p ∈ ps, sep ∉ p) :
    pieces sep (joined sep ps) = ps := by
  induction ps with
  | nil => exact absurd rfl hne
  | cons p ps ih =>
    have hp : sep ∉ p := h p List.mem_cons_self
    cases ps with
    | nil => exact pieces_of_not_mem hp
    | cons q qs =>
      rw [joined, pieces_append_cons hp, ih (List.cons_ne_nil q qs)]
      exact fun r hr => h r (List.mem_cons_of_mem p hr)

theorem joined_eq_intercalate (sep : Char) (ps : List (List Char)) :
    joined sep ps = [sep].intercalate ps := by
  induction ps with
  | nil => rfl
  | cons p ps ih =>
    cases ps with
    | nil => simp [joined]
    | cons q qs => rw [joined, ih, List.intercalate_cons_cons, List.append_assoc]; rfl

theorem mem_joined (h : c ∈ joined sep ps) : c = sep ∨ ∃ p ∈ ps, c ∈ p := by
  induction ps with
  | nil => cases h
  | cons p ps ih =>
    cases ps with
    | nil => exact .inr ⟨p, List.mem_cons_self, h⟩
    | cons q qs =>
      rcases List.mem_append.mp h with h | h
      · exact .inr ⟨p, List.mem_cons_self, h⟩
      · rcases List.mem_cons.mp h with h | h
        · exact .inl h
        · obtain hs | ⟨r, hr, hc⟩ := ih h
          · exact .inl hs
          · exact .inr ⟨r, List.mem_cons_of_mem p hr, hc⟩

theorem joined_cons_cons (sep c : Char) (p : List Char) (ps : List (List Char)) :
    joined sep ((c :: p) :: ps) = c :: joined sep (p :: ps) := by
  cases ps <;> rfl

theorem joined_append_first (sep : Char) (as p : List Char) (ps : List (List Char)) :
    joined sep ((as ++ p) :: ps) = as ++ joined sep (p :: ps) := by
  cases ps with
  | nil => rfl
  | cons q qs => exact List.append_assoc ..

theorem joined_cons_of_ne_nil (sep : Char) (p : List Char) (hne : ps ≠ []) :
    joined sep (p :: ps) = p ++ sep :: joined sep ps := by
  obtain ⟨q, qs, rfl⟩ := List.exists_cons_of_ne_nil hne
  rfl

theorem joined_append_last (sep : Char) (ps : List (List Char)) (p as : List Char) :
    joined sep (ps ++ [p ++ as]) = joined sep (ps ++ [p]) ++ as := by
  induction ps with
  | nil => rfl
  | cons q qs ih =>
    rw [List.cons_append, List.cons_append, joined_cons_of_ne_nil sep q (by simp),
      joined_cons_of_ne_nil sep q (by simp), ih, List.append_assoc, List.cons_append]

/-- There is no separator in a piece. -/
theorem not_mem_of_mem_pieces (h : p ∈ pieces sep cs) : sep ∉ p := by
  induction cs generalizing p with
  | nil =>
    rw [pieces_nil, List.mem_singleton] at h
    rw [h]
    exact List.not_mem_nil
  | cons c cs ih =>
    obtain ⟨q, qs, hq⟩ := List.exists_cons_of_ne_nil (pieces_ne_nil sep cs)
    rw [hq] at ih
    rw [pieces_cons, hq, cutAt] at h
    split at h
    · rcases List.mem_cons.mp h with rfl | h
      · exact List.not_mem_nil
      · exact ih h
    · next hc =>
      rcases List.mem_cons.mp h with rfl | h
      · exact fun hm => (List.mem_cons.mp hm).elim (hc ∘ Eq.symm) (ih List.mem_cons_self)
      · exact ih (List.mem_cons_of_mem q h)

/-- Text without separators in front goes to the first piece. -/
theorem pieces_append_first (h : sep ∉ as) (hp : pieces sep cs = p :: ps) :
    pieces sep (as ++ cs) = (as ++ p) :: ps := by
  induction as with
  | nil => exact hp
  | cons c as ih =>
    rw [List.mem_cons, not_or] at h
    rw [List.cons_append, pieces_cons, ih h.2, cutAt, if_neg (Ne.symm h.1)]
    rfl

/-- Text without separators at the end goes to the last piece. -/
theorem pieces_append_last (h : sep ∉ as) (hp : pieces sep cs = ps ++ [p]) :
    pieces sep (cs ++ as) = ps ++ [p ++ as] := by
  have hmem : ∀ q ∈ ps ++ [p], sep ∉ q := fun q hq => not_mem_of_mem_pieces (hp ▸ hq)
  rw [← joined_pieces sep cs, hp, ← joined_append_last]
  refine pieces_joined (by simp) fun q hq => ?_
  rcases List.mem_append.mp hq with hq | hq
  · exact hmem q (List.mem_append_left _ hq)
  · rw [List.mem_singleton.mp hq, List.mem_append, not_or]
    exact ⟨hmem p (List.mem_append_right _ (List.mem_singleton_self p)), h⟩

/-! ### Stripping -/

/-- Blanks in front do not count. -/
theorem strip_append_left (h : ∀ c ∈ as, isBlank c = true) (cs : List Char) :
    strip (as ++ cs) = strip cs := by
  rw [strip, stripLeft, List.dropWhile_append_of_pos h]
  rfl

theorem strip_cons (h : isBlank c = true) (cs : List Char) : strip (c :: cs) = strip cs :=
  strip_append_left (List.forall_mem_singleton.mpr h) cs

theorem stripLeft_of_blank (h : ∀ c ∈ cs, isBlank c = true) : stripLeft cs = [] := by
  rw [stripLeft, ← List.append_nil cs, List.dropWhile_append_of_pos h]
  rfl

/-- Nothing is left of a text exactly if it is all blank. -/
theorem strip_eq_nil_iff : strip cs = [] ↔ ∀ c ∈ cs, isBlank c = true := by
  constructor
  · intro h
    have hleft : ∀ c ∈ stripLeft cs, isBlank c = true := by
      intro c hc
      rw [strip, stripRight, List.reverse_eq_nil_iff] at h
      exact List.dropWhile_eq_nil_iff.mp h c (List.mem_reverse.mpr hc)
    -- What is left begins with a character that is not blank, so nothing is left there either.
    refine List.dropWhile_eq_nil_iff.mp ?_
    by_contra hne
    have hblank := hleft _ (List.head_mem hne)
    rw [List.head_dropWhile_not isBlank hne] at hblank
    cases hblank
  · intro h
    rw [strip, stripLeft_of_blank h]
    rfl

/-- Blanks at the end do not count either. -/
theorem strip_append_right (h : ∀ c ∈ as, isBlank c = true) (cs : List Char) :
    strip (cs ++ as) = strip cs := by
  rw [strip, strip, stripLeft, stripLeft, List.dropWhile_append]
  split
  · next hempty =>
    have hnone : as.dropWhile isBlank = [] := stripLeft_of_blank h
    rw [List.isEmpty_iff.mp hempty, hnone]
  · rw [stripRight, stripRight, List.reverse_append,
      List.dropWhile_append_of_pos fun c hc => h c (List.mem_reverse.mp hc)]

theorem stripLeft_eq_self (h : ∀ c ∈ cs.head?, isBlank c = false) : stripLeft cs = cs := by
  cases cs with
  | nil => rfl
  | cons c cs => rw [stripLeft, List.dropWhile_cons, if_neg (by simp [h c rfl])]

/-- A text without blanks at its ends is left alone. -/
theorem strip_eq_self (hhead : ∀ c ∈ cs.head?, isBlank c = false)
    (hlast : ∀ c ∈ cs.getLast?, isBlank c = false) : strip cs = cs := by
  have hr : stripLeft cs.reverse = cs.reverse :=
    stripLeft_eq_self (by simpa only [List.head?_reverse] using hlast)
  rw [strip, stripLeft_eq_self hhead, stripRight]
  rw [stripLeft] at hr
  rw [hr, List.reverse_reverse]

/-- A text without any blank is left alone. -/
theorem strip_of_all (h : ∀ c ∈ cs, isBlank c = false) : strip cs = cs :=
  strip_eq_self (fun c hc => h c (List.mem_of_mem_head? hc))
    (fun c hc => h c (List.mem_of_mem_getLast? hc))

/-- A text that does not end in a blank. -/
def EndsSolid (cs : List Char) : Prop := ∃ init c, cs = init ++ [c] ∧ isBlank c = false

theorem EndsSolid.append (h : EndsSolid p) (cs : List Char) : EndsSolid (cs ++ p) := by
  obtain ⟨init, c, rfl, hc⟩ := h
  exact ⟨cs ++ init, c, (List.append_assoc ..).symm, hc⟩

theorem endsSolid_joined (hne : ps ≠ []) (h : ∀ p ∈ ps, EndsSolid p) :
    EndsSolid (joined sep ps) := by
  induction ps with
  | nil => exact absurd rfl hne
  | cons p ps ih =>
    cases ps with
    | nil => exact h p List.mem_cons_self
    | cons q qs =>
      have hrest := ih (List.cons_ne_nil q qs) fun r hr => h r (List.mem_cons_of_mem p hr)
      exact (hrest.append [sep]).append p

/-! ### Capitals -/

/-- The codes of all blanks. -/
def blankCodes : List Nat :=
  List.range' 0x09 5 ++ List.range' 0x1C 5 ++ [0x85, 0xA0, 0x1680] ++ List.range' 0x2000 11 ++
    [0x2028, 0x2029, 0x202F, 0x205F, 0x3000]

theorem toNat_mem_blankCodes {c : Char} (h : isBlank c = true) : c.toNat ∈ blankCodes := by
  simp only [isBlank, Bool.or_eq_true, Bool.and_eq_true, decide_eq_true_eq, beq_iff_eq] at h
  simp only [blankCodes, List.mem_append, List.mem_range'_1, List.mem_cons, List.not_mem_nil]
  omega

/-- Blanks are not letters. -/
theorem upperChar_of_isBlank {c : Char} (h : isBlank c = true) : upperChar c = [c] := by
  have hall : ∀ n ∈ blankCodes, upperChar (Char.ofNat n) = [Char.ofNat n] := by decide
  rw [← Char.ofNat_toNat c]
  exact hall _ (toNat_mem_blankCodes h)

/-- A text whose capitals have no blanks has none itself. -/
theorem strip_of_upper (h : ∀ c ∈ upper cs, isBlank c = false) : strip cs = cs := by
  refine strip_of_all fun c hc => Bool.eq_false_iff.mpr fun hb => ?_
  have hmem : c ∈ upper cs :=
    List.mem_flatMap.mpr ⟨c, hc, by rw [upperChar_of_isBlank hb]; exact List.mem_singleton_self c⟩
  rw [h c hmem] at hb
  cases hb

end Chip8.Text
