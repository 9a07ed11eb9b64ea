import Chip8.Proofs.Assembly.Counterpart

/-!
# Layout

Comments, blanks at the ends of a line and lines that say nothing are there for the reader of a
source text. They change neither the bytes nor what a text is refused for, except for the number of
the line.

A line is read without its comment and without the blanks at the ends of its parts. The blanks in
front go to its first part and those at the end to its last, so the labels and the statement are the
same, and so is the text that a refusal quotes. A line that is put in has no items. It moves the
lines below it, and that is all the passes can see of it: the line of each item.

## Main definitions

* `sourceLines`, `ofLines` — a source text and its lines
* `editLine`, `insertLine` — one line changed, one line more
* `Refusal.makeRoom` — a refusal when there is a line more

## Main results

* `readLine_comment`, `readLine_blanks`, `readLine_of_isBlankLine` — lines that are laid out
  otherwise
* `assemble_editLine`, `assemble_insertLine` — what that comes to
* `layout_does_not_matter` — all of it
-/

namespace Chip8

namespace Assembly

open Text

variable {line before behind comment p : List Char} {ps : List (List Char)}

/-! ### One line -/

/-- Blanks in front of a line stand in front of its first label, or of its statement. -/
theorem leadingLabels_append_first (h : ∀ c ∈ before, isBlank c = true) :
    leadingLabels ((before ++ p) :: ps) = leadingLabels (p :: ps) := by
  cases ps with
  | nil => rw [leadingLabels, leadingLabels, strip_append_left h]
  | cons q qs =>
    rw [leadingLabels, leadingLabels, joined_append_first, strip_append_left h, strip_append_left h]

/-- Blanks at the end of a line stand behind its statement. -/
theorem leadingLabels_append_last (h : ∀ c ∈ behind, isBlank c = true) :
    leadingLabels (ps ++ [p ++ behind]) = leadingLabels (ps ++ [p]) := by
  induction ps with
  | nil =>
    change leadingLabels [p ++ behind] = leadingLabels [p]
    rw [leadingLabels, leadingLabels, strip_append_right h]
  | cons q qs ih =>
    have hjoined : strip (joined ':' (q :: qs ++ [p ++ behind])) =
        strip (joined ':' (q :: qs ++ [p])) := by
      rw [joined_append_last, strip_append_right h]
    rw [List.cons_append, List.cons_append, leadingLabels_cons (by simp),
      leadingLabels_cons (by simp), ih]
    exact ite_congr rfl (fun _ => rfl) fun _ => congrArg (Prod.mk []) hjoined

theorem leadingLabels_blanks (hbefore : ∀ c ∈ before, isBlank c = true)
    (hbehind : ∀ c ∈ behind, isBlank c = true) (cs : List Char) :
    leadingLabels (pieces ':' (before ++ cs ++ behind)) = leadingLabels (pieces ':' cs) := by
  have hcolon {as : List Char} (h : ∀ c ∈ as, isBlank c = true) : ':' ∉ as := fun hm =>
    absurd (h ':' hm) (by decide)
  obtain ⟨p, ps, hp⟩ := List.exists_cons_of_ne_nil (pieces_ne_nil ':' cs)
  have hfirst := pieces_append_first (hcolon hbefore) hp
  obtain ⟨qs, q, hq⟩ := (List.eq_nil_or_concat _).resolve_left (pieces_ne_nil ':' (before ++ cs))
  rw [List.concat_eq_append] at hq
  rw [pieces_append_last (hcolon hbehind) hq, leadingLabels_append_last hbehind, ← hq, hfirst,
    leadingLabels_append_first hbefore, ← hp]

/-- The comment of a line is not read. -/
theorem readLine_comment (line comment : List Char) :
    readLine (line ++ ';' :: comment) = readLine line := by
  have hcode : withoutComment (line ++ ';' :: comment) = withoutComment line := by
    rw [withoutComment, withoutComment, List.takeWhile_append]
    split
    · next hall =>
      rw [List.takeWhile_cons_of_neg (by simp), List.append_nil]
      exact (List.takeWhile_prefix _).eq_of_length hall |>.symm
    · rfl
  rw [readLine, hcode]
  rfl

/-- Blanks at the end of a line stand behind its code or in its comment. -/
theorem exists_withoutComment_blanks (hbefore : ∀ c ∈ before, isBlank c = true)
    (hbehind : ∀ c ∈ behind, isBlank c = true) (line : List Char) :
    ∃ rest, (∀ c ∈ rest, isBlank c = true) ∧
      withoutComment (before ++ line ++ behind) = before ++ withoutComment line ++ rest := by
  have hcode {as : List Char} (h : ∀ c ∈ as, isBlank c = true) :
      ∀ c ∈ as, decide (c ≠ ';') = true := fun c hc => by
    refine decide_eq_true ?_
    rintro rfl
    exact absurd (h ';' hc) (by decide)
  simp only [withoutComment]
  rw [List.append_assoc, List.takeWhile_append_of_pos (hcode hbefore), List.takeWhile_append]
  split
  · next hall =>
    refine ⟨behind, hbehind, ?_⟩
    rw [(List.takeWhile_prefix _).eq_of_length hall, List.append_assoc,
      List.takeWhile_eq_self_iff.mpr (hcode hbehind)]
  · exact ⟨[], fun c hc => (nomatch hc), (List.append_nil _).symm⟩

/-- The blanks at the ends of a line are not read. -/
theorem readLine_blanks (hbefore : ∀ c ∈ before, isBlank c = true)
    (hbehind : ∀ c ∈ behind, isBlank c = true) (line : List Char) :
    readLine (before ++ line ++ behind) = readLine line := by
  obtain ⟨rest, hrest, hcode⟩ := exists_withoutComment_blanks hbefore hbehind line
  rw [readLine, hcode, leadingLabels_blanks hbefore hrest]
  rfl

/-- A line that says nothing: blanks, and perhaps a comment. -/
def IsBlankLine (line : List Char) : Prop :=
  ∀ c ∈ withoutComment line, isBlank c = true

instance (line : List Char) : Decidable (IsBlankLine line) :=
  List.decidableBAll (isBlank · = true) (withoutComment line)

theorem readLine_of_isBlankLine (h : IsBlankLine line) : readLine line = .ok [] := by
  have hcode : withoutComment line = withoutComment line ++ [] ++ [] := by simp
  rw [readLine, hcode, leadingLabels_blanks h (List.forall_mem_nil _)]
  rfl

/-! ### A line of a source text -/

/-- The lines of a source text. -/
def sourceLines (source : String) : List (List Char) := pieces '\n' source.toList

/-- The source text that consists of some lines. -/
def ofLines (lines : List (List Char)) : String := String.ofList (joined '\n' lines)

/-- A source text with its line `k` changed. The first line is line `0` here. -/
def editLine (k : Nat) (f : List Char → List Char) (source : String) : String :=
  ofLines ((sourceLines source).modify k f)

/-- A source text with a line more, behind its first `k` lines. -/
def insertLine (k : Nat) (line : List Char) (source : String) : String :=
  ofLines ((sourceLines source).take k ++ line :: (sourceLines source).drop k)

variable {source : String} {lines : List (List Char)} {k : Nat}

theorem not_mem_of_mem_sourceLines (h : line ∈ sourceLines source) : '\n' ∉ line :=
  not_mem_of_mem_pieces h

theorem assemble_eq (source : String) :
    assemble source = itemsFrom 1 (sourceLines source) >>= assembleItems := rfl

theorem sourceLines_ofLines (hne : lines ≠ []) (h : ∀ l ∈ lines, '\n' ∉ l) :
    sourceLines (ofLines lines) = lines := by
  rw [sourceLines, ofLines, String.toList_ofList, pieces_joined hne h]

/-! ### A line that is laid out otherwise -/

theorem itemsFrom_modify {f : List Char → List Char} (hf : ∀ l, readLine (f l) = readLine l)
    (number : Nat) (lines : List (List Char)) (k : Nat) :
    itemsFrom number (lines.modify k f) = itemsFrom number lines := by
  induction lines generalizing number k with
  | nil => rw [List.modify_nil]
  | cons l lines ih =>
    cases k with
    | zero =>
      rw [List.modify_zero_cons, itemsFrom_cons, itemsFrom_cons, itemsOfLine_eq, itemsOfLine_eq, hf]
    | succ k => rw [List.modify_succ_cons, itemsFrom_cons, itemsFrom_cons, ih]

/-- A line that is read as before changes nothing. -/
theorem assemble_editLine {f : List Char → List Char} (hread : ∀ l, readLine (f l) = readLine l)
    (hf : ∀ l, '\n' ∉ l → '\n' ∉ f l) (k : Nat) (source : String) :
    assemble (editLine k f source) = assemble source := by
  have hlines : ∀ l ∈ (sourceLines source).modify k f, '\n' ∉ l := by
    by_cases hk : k < (sourceLines source).length
    · obtain ⟨as, l, bs, heq, -, hmodify⟩ := List.exists_of_modify f hk
      have hall : ∀ l' ∈ as ++ l :: bs, '\n' ∉ l' := fun l' hl =>
        not_mem_of_mem_sourceLines (heq ▸ hl)
      rw [hmodify]
      rw [List.forall_mem_append, List.forall_mem_cons] at hall ⊢
      exact ⟨hall.1, hf l hall.2.1, hall.2.2⟩
    · rw [List.modify_eq_self (Nat.le_of_not_lt hk)]
      exact fun l hl => not_mem_of_mem_sourceLines hl
  have hne : (sourceLines source).modify k f ≠ [] := by
    rw [← List.length_pos_iff, List.length_modify]
    exact List.length_pos_iff.mpr (pieces_ne_nil '\n' source.toList)
  rw [assemble_eq, editLine, sourceLines_ofLines hne hlines, itemsFrom_modify hread, ← assemble_eq]

/-! ### A line more -/

/-- A refusal of a source text when there is a line more behind the first `k`. The lines from there
on have moved. -/
def Refusal.makeRoom (k : Nat) (r : Refusal) : Refusal :=
  ⟨if k < r.line then r.line + 1 else r.line, r.problem⟩

theorem Refusal.makeRoom_of_le {n : Nat} (h : n ≤ k) (p : Problem) :
    Refusal.makeRoom k ⟨n, p⟩ = ⟨n, p⟩ :=
  congrArg (Refusal.mk · p) (if_neg (Nat.not_lt.mpr h))

theorem Refusal.makeRoom_of_lt {n : Nat} (h : k < n) (p : Problem) :
    Refusal.makeRoom k ⟨n, p⟩ = ⟨n + 1, p⟩ :=
  congrArg (Refusal.mk · p) (if_pos h)

section Readings

variable {ρ : Type} {g h : Refusal → ρ} {n m : Nat}

theorem readAlike_of_line (line : List Char)
    (hp : ∀ p, g ⟨n, p⟩ = h ⟨m, p⟩) : ReadAlike g h (itemsOfLine n line) (itemsOfLine m line) := by
  rw [itemsOfLine_eq, itemsOfLine_eq]
  cases readLine line with
  | error p => exact .refusal (hp p)
  | ok is =>
    refine .items (List.forall₂_map_left_iff.mpr (List.forall₂_map_right_iff.mpr ?_))
    refine List.forall₂_same.mpr fun i _ => ?_
    cases i with
    | label name => exact .label (fun _ _ => hp _) rfl (hp _)
    | statement s =>
      refine .statement (fun _ _ => hp _) rfl fun labels _ => ?_
      cases encode labels s with
      | error p => exact congrArg Except.error (hp p)
      | ok bytes => rfl

/-- The same lines are read alike in two places. -/
theorem readAlike_of_lines (lines : List (List Char))
    (hp : ∀ i < lines.length, ∀ p, g ⟨n + i, p⟩ = h ⟨m + i, p⟩) :
    ReadAlike g h (itemsFrom n lines) (itemsFrom m lines) := by
  refine readAlike_itemsFrom rfl fun i l l' hl hl' => ?_
  obtain rfl := Option.some.inj (hl.symm.trans hl')
  exact readAlike_of_line l (hp i (List.getElem?_eq_some_iff.mp hl).1)

end Readings

theorem sourceLines_insertLine (hline : '\n' ∉ line) (k : Nat) (source : String) :
    sourceLines (insertLine k line source) =
      (sourceLines source).take k ++ line :: (sourceLines source).drop k := by
  refine sourceLines_ofLines (by simp) fun l hl => ?_
  rcases List.mem_append.mp hl with hl | hl
  · exact not_mem_of_mem_sourceLines (List.mem_of_mem_take hl)
  · rcases List.mem_cons.mp hl with rfl | hl
    · exact hline
    · exact not_mem_of_mem_sourceLines (List.mem_of_mem_drop hl)

theorem itemsFrom_blank_cons (h : IsBlankLine line) (number : Nat) (lines : List (List Char)) :
    itemsFrom number (line :: lines) = itemsFrom (number + 1) lines := by
  rw [itemsFrom_cons, itemsOfLine_eq, readLine_of_isBlankLine h]
  cases itemsFrom (number + 1) lines <;> rfl

/-- A line that says nothing leaves the bytes alone, or moves the refusal. -/
theorem assemble_insertLine (hline : '\n' ∉ line) (hblank : IsBlankLine line) (k : Nat)
    (source : String) :
    assemble (insertLine k line source) = (assemble source).mapError (·.makeRoom k) := by
  have habove : ReadAlike (·.makeRoom k) id (itemsFrom 1 ((sourceLines source).take k))
      (itemsFrom 1 ((sourceLines source).take k)) := by
    refine readAlike_of_lines _ fun i hi p => Refusal.makeRoom_of_le ?_ p
    rw [List.length_take] at hi
    omega
  have hbelow : ReadAlike (·.makeRoom k) id
      (itemsFrom (1 + ((sourceLines source).take k).length) ((sourceLines source).drop k))
      (itemsFrom (1 + ((sourceLines source).take k).length + 1) ((sourceLines source).drop k)) := by
    refine readAlike_of_lines _ fun i hi p => ?_
    rw [List.length_drop] at hi
    rw [List.length_take, Nat.add_right_comm (1 + _) 1 i]
    exact Refusal.makeRoom_of_lt (by omega) p
  have hread : ReadAlike (·.makeRoom k) id (itemsFrom 1 (sourceLines source))
      (itemsFrom 1 (sourceLines (insertLine k line source))) := by
    rw [sourceLines_insertLine hline, itemsFrom_append, itemsFrom_blank_cons hblank]
    nth_rewrite 1 [← List.take_append_drop k (sourceLines source)]
    rw [itemsFrom_append]
    exact habove.append hbelow
  rw [← mapError_id (assemble (insertLine k line source))]
  exact (assembleChars_congr hread).symm

end Assembly

open Assembly Text

/-- Blanks that can stand in a line. -/
def Blanks (cs : List Char) : Prop :=
  '\n' ∉ cs ∧ ∀ c ∈ cs, isBlank c = true

/-- Layout does not matter. A comment at the end of a line and blanks at its ends change neither the
bytes nor the refusal, which quotes the same text. A line that says nothing leaves the bytes alone
too, and it moves a refusal down by one line if it is put in above it. -/
theorem layout_does_not_matter (source : String) :
    (∀ k comment, '\n' ∉ comment →
      assemble (editLine k (· ++ ';' :: comment) source) = assemble source) ∧
    (∀ k before behind, Blanks before → Blanks behind →
      assemble (editLine k (before ++ · ++ behind) source) = assemble source) ∧
    ∀ k line, '\n' ∉ line → IsBlankLine line →
      assemble (insertLine k line source) = (assemble source).mapError (·.makeRoom k) := by
  refine ⟨fun k comment hcomment => ?_, fun k before behind hbefore hbehind => ?_, ?_⟩
  · refine assemble_editLine (fun l => readLine_comment l comment) (fun l hl => ?_) k source
    simp [hl, hcomment]
  · refine assemble_editLine (readLine_blanks hbefore.2 hbehind.2) (fun l hl => ?_) k source
    simp [hl, hbefore.1, hbehind.1]
  · exact fun k line hline hblank => assemble_insertLine hline hblank k source

/-- A jump to nowhere, laid out in other ways. -/
theorem layout_does_not_matter_to_jump :
    assemble (editLine 1 (· ++ ';' :: ": DB 1".toList) "CLS\nJP nowhere") =
      .error ⟨2, .unknownLabel "nowhere"⟩ ∧
    assemble (editLine 1 ("\t\u3000".toList ++ · ++ " ".toList) "CLS\nJP nowhere") =
      .error ⟨2, .unknownLabel "nowhere"⟩ ∧
    assemble (insertLine 1 " ; here".toList "CLS\nJP nowhere") =
      .error ⟨3, .unknownLabel "nowhere"⟩ ∧
    assemble (insertLine 2 [] "CLS\nJP nowhere") = .error ⟨2, .unknownLabel "nowhere"⟩ := by
  obtain ⟨hcomment, hblanks, hline⟩ := layout_does_not_matter "CLS\nJP nowhere"
  have hjump : assemble "CLS\nJP nowhere" = .error ⟨2, .unknownLabel "nowhere"⟩ := by
    decide +kernel
  have hfront : Blanks "\t\u3000".toList := ⟨by decide, List.all_eq_true.mp (by decide)⟩
  have hback : Blanks " ".toList := ⟨by decide, List.all_eq_true.mp (by decide)⟩
  refine ⟨?_, ?_, ?_, ?_⟩
  · rw [hcomment 1 _ (by decide), hjump]
  · rw [hblanks 1 _ _ hfront hback, hjump]
  · rw [hline 1 _ (by decide) (by decide), hjump]
    rfl
  · rw [hline 2 _ (by decide) (by decide), hjump]
    rfl

end Chip8
