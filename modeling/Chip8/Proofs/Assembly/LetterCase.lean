import Chip8.Proofs.Assembly.Spelling

/-!
# Letter case

Case is dropped in many places, each on its own copy of the text: for operations, for labels where
they are defined and where they are used, for registers, special names and numerals. Nowhere is a
letter looked at before that. What the text is cut by are no letters, nor are blanks, and being a
letter is all that is asked of one in a name.

Two texts that differ in the case of letters are compared by way of a third, the same text in
capitals. So it is enough to compare a text with its capitals: the pieces of the one are the
capitals of the pieces of the other, down to operands, and what remains is that an operand and its
capitals are alike.

Letters of ASCII are meant. The capitals of other letters may be several, or letters of ASCII, and a
character that is no part of a name can have a capital that is.

## Main definitions

* `inCapitals` — a text with all letters of ASCII in capitals
* `DifferInCase` — texts that differ in nothing else

## Main results

* `alike_inCapitals` — an operand and its capitals
* `readAlike_inCapitals` — a line and its capitals
* `letter_case_does_not_matter` — two texts
-/

namespace Chip8

namespace Text

/-- A text with all letters of ASCII in capitals. -/
def inCapitals (cs : List Char) : List Char := cs.map Char.toUpper

variable {sep c : Char}

/-! ### Characters -/

/-- Only characters of ASCII are changed. -/
theorem toUpper_eq_self (h : 0x80 ≤ c.toNat) : c.toUpper = c := by
  have hnone : ¬ ('a'.val ≤ c.val ∧ c.val ≤ 'z'.val) := by
    rw [UInt32.le_iff_toNat_le, UInt32.le_iff_toNat_le]
    change ¬ (_ ∧ c.toNat ≤ 0x7A)
    omega
  exact dif_neg hnone

/-- What holds of the characters of ASCII holds of all, if it is about a character and its
capital. -/
theorem of_ascii {P : Char → Char → Prop}
    (hascii : ∀ n < 0x80, P (Char.ofNat n) (Char.ofNat n).toUpper) (hself : ∀ c, P c c) (c : Char) :
    P c c.toUpper := by
  by_cases h : c.toNat < 0x80
  · exact Assembly.forall_ascii (P := fun c => P c c.toUpper) hascii h
  · rw [toUpper_eq_self (Nat.le_of_not_lt h)]
    exact hself c

theorem isBlank_toUpper (c : Char) : isBlank c.toUpper = isBlank c :=
  of_ascii (P := fun c d => isBlank d = isBlank c) (by decide) (fun _ => rfl) c

theorem upperChar_toUpper (c : Char) : upperChar c.toUpper = upperChar c :=
  of_ascii (P := fun c d => upperChar d = upperChar c) (by decide) (fun _ => rfl) c

/-- A character that a text is cut by is no letter. -/
theorem toUpper_eq_iff (h : sep ∈ [';', ':', ',', '\n']) (c : Char) :
    c.toUpper = sep ↔ c = sep := by
  have hall := of_ascii (P := fun c d => (d = ';' ↔ c = ';') ∧ (d = ':' ↔ c = ':') ∧
    (d = ',' ↔ c = ',') ∧ (d = '\n' ↔ c = '\n')) (by decide)
    (fun _ => ⟨Iff.rfl, Iff.rfl, Iff.rfl, Iff.rfl⟩) c
  simp only [List.mem_cons, List.not_mem_nil, or_false] at h
  obtain rfl | rfl | rfl | rfl := h
  · exact hall.1
  · exact hall.2.1
  · exact hall.2.2.1
  · exact hall.2.2.2

/-! ### Texts -/

theorem takeWhile_inCapitals {p : Char → Bool} (hp : ∀ c, p c.toUpper = p c) (cs : List Char) :
    (inCapitals cs).takeWhile p = inCapitals (cs.takeWhile p) := by
  rw [inCapitals, List.takeWhile_map, show p ∘ Char.toUpper = p from funext hp]
  rfl

theorem dropWhile_inCapitals {p : Char → Bool} (hp : ∀ c, p c.toUpper = p c) (cs : List Char) :
    (inCapitals cs).dropWhile p = inCapitals (cs.dropWhile p) := by
  rw [inCapitals, List.dropWhile_map, show p ∘ Char.toUpper = p from funext hp]
  rfl

theorem reverse_inCapitals (cs : List Char) : (inCapitals cs).reverse = inCapitals cs.reverse :=
  List.map_reverse.symm

theorem stripLeft_inCapitals (cs : List Char) :
    stripLeft (inCapitals cs) = inCapitals (stripLeft cs) :=
  dropWhile_inCapitals isBlank_toUpper cs

theorem strip_inCapitals (cs : List Char) : strip (inCapitals cs) = inCapitals (strip cs) := by
  rw [strip, stripRight, stripLeft_inCapitals, reverse_inCapitals,
    dropWhile_inCapitals isBlank_toUpper, reverse_inCapitals]
  rfl

theorem upper_inCapitals (cs : List Char) : upper (inCapitals cs) = upper cs := by
  rw [upper, inCapitals, List.flatMap_map]
  exact congrArg (cs.flatMap ·) (funext upperChar_toUpper)

theorem numeral?_inCapitals (cs : List Char) : numeral? (inCapitals cs) = numeral? cs := by
  rw [numeral?, numeral?, strip_inCapitals, upper_inCapitals]

theorem pieces_inCapitals (h : sep ∈ [';', ':', ',', '\n']) (cs : List Char) :
    pieces sep (inCapitals cs) = (pieces sep cs).map inCapitals := by
  induction cs with
  | nil => rfl
  | cons c cs ih =>
    obtain ⟨p, ps, hp⟩ := List.exists_cons_of_ne_nil (pieces_ne_nil sep cs)
    change cutAt sep c.toUpper (pieces sep (inCapitals cs)) = _
    rw [ih, pieces_cons, hp, List.map_cons, cutAt, cutAt]
    by_cases hc : c = sep
    · rw [if_pos hc, if_pos ((toUpper_eq_iff h c).mpr hc)]
      rfl
    · rw [if_neg hc, if_neg (hc ∘ (toUpper_eq_iff h c).mp)]
      rfl

theorem joined_inCapitals (h : sep ∈ [';', ':', ',', '\n']) (ps : List (List Char)) :
    joined sep (ps.map inCapitals) = inCapitals (joined sep ps) := by
  induction ps with
  | nil => rfl
  | cons p ps ih =>
    cases ps with
    | nil => rfl
    | cons q qs =>
      have hsep : sep.toUpper = sep := (toUpper_eq_iff h sep).mpr rfl
      rw [List.map_cons, joined_cons_of_ne_nil sep _ (by simp), ih, joined, inCapitals, inCapitals,
        inCapitals, List.map_append, List.map_cons, hsep]

end Text

namespace Assembly

open Text

variable {labels : Labels}

/-! ### Lines -/

theorem isNameStart_toUpper (c : Char) : isNameStart c.toUpper = isNameStart c :=
  of_ascii (P := fun c d => isNameStart d = isNameStart c) (by decide) (fun _ => rfl) c

theorem isNamePart_toUpper (c : Char) : isNamePart c.toUpper = isNamePart c :=
  of_ascii (P := fun c d => isNamePart d = isNamePart c) (by decide) (fun _ => rfl) c

theorem isName_inCapitals (cs : List Char) : isName (inCapitals cs) = isName cs := by
  cases cs with
  | nil => rfl
  | cons c cs =>
    change (isNameStart c.toUpper && (cs.map Char.toUpper).all isNamePart) = _
    rw [isNameStart_toUpper, List.all_map, show isNamePart ∘ Char.toUpper = isNamePart from
      funext isNamePart_toUpper]
    rfl

theorem withoutComment_inCapitals (line : List Char) :
    withoutComment (inCapitals line) = inCapitals (withoutComment line) :=
  takeWhile_inCapitals
    (fun c => decide_eq_decide.mpr (not_congr (toUpper_eq_iff (by decide) c))) line

theorem leadingLabels_inCapitals (ps : List (List Char)) :
    leadingLabels (ps.map inCapitals) =
      ((leadingLabels ps).1.map inCapitals, inCapitals (leadingLabels ps).2) := by
  induction ps with
  | nil => rfl
  | cons p ps ih =>
    cases ps with
    | nil =>
      change ([], strip (inCapitals p)) = _
      rw [strip_inCapitals]
      rfl
    | cons q qs =>
      have hjoined : joined ':' ((p :: q :: qs).map inCapitals) =
          inCapitals (joined ':' (p :: q :: qs)) := joined_inCapitals (by decide) _
      rw [List.map_cons] at hjoined ⊢
      rw [leadingLabels_cons (by simp), leadingLabels_cons (by simp), ih, hjoined, strip_inCapitals,
        strip_inCapitals, isName_inCapitals]
      split <;> rfl

theorem operandsOf_inCapitals (text : List Char) :
    operandsOf (inCapitals text) = (operandsOf text).map inCapitals := by
  rw [operandsOf, operandsOf, stripLeft_inCapitals]
  cases stripLeft text with
  | nil => rfl
  | cons c cs =>
    change (pieces ',' (inCapitals (c :: cs))).map strip = ((pieces ',' (c :: cs)).map strip).map _
    rw [pieces_inCapitals (by decide), List.map_map, List.map_map]
    exact congrArg (List.map · _) (funext strip_inCapitals)

/-- A statement with its operands in capitals, like its operation. -/
def Statement.inCapitals (s : Statement) : Statement :=
  ⟨s.operation, s.operands.map Text.inCapitals⟩

def Item.inCapitals : Item → Item
  | label name => label (Text.inCapitals name)
  | statement s => statement s.inCapitals

theorem Statement.parse_of_ne_nil {text : List Char} (h : text ≠ []) :
    Statement.parse text =
      if (operandsOf (text.dropWhile (!isBlank ·))).any List.isEmpty then
        .error (.emptyOperand (String.ofList text))
      else .ok (some ⟨upper (text.takeWhile (!isBlank ·)),
        operandsOf (text.dropWhile (!isBlank ·))⟩) := by
  obtain ⟨c, cs, rfl⟩ := List.exists_cons_of_ne_nil h
  rfl

/-- The capitals of a text hold the same statement, with its operands in capitals. -/
theorem agree_parse (text : List Char) :
    Agree (Statement.parse (inCapitals text))
      (do return (← Statement.parse text).map Statement.inCapitals) := by
  by_cases hne : text = []
  · rw [hne]
    rfl
  · have hblank : ∀ c : Char, (!isBlank c.toUpper) = !isBlank c := fun c => by rw [isBlank_toUpper]
    have hempty : ∀ operands : List (List Char),
        (operands.map inCapitals).any List.isEmpty = operands.any List.isEmpty := fun operands => by
      rw [List.any_map]
      exact congrArg operands.any (funext fun _ => List.isEmpty_map)
    have hne' : inCapitals text ≠ [] := mt List.map_eq_nil_iff.mp hne
    rw [Statement.parse_of_ne_nil hne, Statement.parse_of_ne_nil hne',
      takeWhile_inCapitals hblank, dropWhile_inCapitals hblank, upper_inCapitals,
      operandsOf_inCapitals, hempty]
    split <;> rfl

theorem agree_readLine (line : List Char) :
    Agree (readLine (inCapitals line)) (do return (← readLine line).map Item.inCapitals) := by
  rw [readLine, readLine, withoutComment_inCapitals, pieces_inCapitals (by decide),
    leadingLabels_inCapitals]
  obtain ⟨names, rest⟩ := leadingLabels (pieces ':' (withoutComment line))
  have h := (agree_parse rest).bind fun s? => .refl
    (pure ((names.map inCapitals).map Item.label ++ s?.toList.map Item.statement))
  refine h.trans (congrArg (Except.mapError _) ?_)
  dsimp only
  cases Statement.parse rest with
  | error p => rfl
  | ok s? =>
    refine congrArg Except.ok ?_
    cases s? <;> simp [Item.inCapitals]

/-! ### Source texts -/

/-- Case is dropped before an operand is looked at. -/
theorem alike_inCapitals (operand : List Char) : Alike labels (inCapitals operand) operand :=
  .of_upper (upper_inCapitals operand) (numeral?_inCapitals operand)

/-- A line and its capitals are read alike. -/
theorem readAlike_inCapitals (number : Nat) (line : List Char) :
    ReadAlike Refusal.unquoted Refusal.unquoted (itemsOfLine number (inCapitals line))
      (itemsOfLine number line) := by
  have h := agree_readLine line
  rw [itemsOfLine_eq, itemsOfLine_eq]
  cases hr : readLine line with
  | error p =>
    rw [hr] at h
    obtain ⟨p', hp, hq⟩ := h.exists_eq_error
    rw [hp]
    exact .refusal (congrArg (Refusal.mk number) hq)
  | ok is =>
    rw [hr] at h
    rw [h.eq_ok]
    refine .items ?_
    rw [List.map_map, List.forall₂_map_left_iff, List.forall₂_map_right_iff, List.forall₂_same]
    intro i _
    cases i with
    | label name => exact .label (fun _ _ => rfl) (upper_inCapitals name) rfl
    | statement s =>
      refine .of_alike fun labels _ => ?_
      rw [List.forall₂_map_left_iff, List.forall₂_same]
      exact fun operand _ => alike_inCapitals operand

theorem assembleChars_inCapitals (source : List Char) :
    (assembleChars (inCapitals source)).mapError Refusal.unquoted =
      (assembleChars source).mapError Refusal.unquoted := by
  refine assembleChars_congr ?_
  rw [items_eq_itemsFrom, items_eq_itemsFrom, pieces_inCapitals (by decide)]
  refine readAlike_itemsFrom (List.length_map _) fun i line line' hline hline' => ?_
  rw [List.getElem?_map, hline', Option.map_some] at hline
  obtain rfl := Option.some.inj hline
  exact readAlike_inCapitals _ line'

end Assembly

open Assembly Text

/-- Source texts that differ at most in the case of letters of ASCII. -/
def DifferInCase (a b : String) : Prop := inCapitals a.toList = inCapitals b.toList

instance (a b : String) : Decidable (DifferInCase a b) :=
  inferInstanceAs (Decidable (inCapitals a.toList = inCapitals b.toList))

/-- Letter case does not matter. Both texts come to the same bytes, or both are refused on the same
line for the same reason. -/
theorem letter_case_does_not_matter {a b : String} (h : DifferInCase a b) :
    (∃ bytes, assemble a = .ok bytes ∧ assemble b = .ok bytes) ∨
      ∃ r r', assemble a = .error r ∧ assemble b = .error r' ∧ r.line = r'.line ∧
        r.problem.unquoted = r'.problem.unquoted := by
  have hab : (assemble a).mapError Refusal.unquoted = (assemble b).mapError Refusal.unquoted := by
    rw [assemble, assemble, ← assembleChars_inCapitals, h, assembleChars_inCapitals]
  cases ha : assemble a with
  | ok bytes =>
    cases hb : assemble b with
    | ok bytes' =>
      rw [ha, hb] at hab
      exact .inl ⟨bytes, rfl, congrArg Except.ok (Except.ok.inj hab).symm⟩
    | error r =>
      rw [ha, hb] at hab
      cases hab
  | error r =>
    cases hb : assemble b with
    | ok bytes =>
      rw [ha, hb] at hab
      cases hab
    | error r' =>
      rw [ha, hb] at hab
      obtain ⟨hline, hproblem⟩ := Refusal.mk.inj (Except.error.inj hab)
      exact .inr ⟨r, r', rfl, rfl, hline, hproblem⟩

/-- A label, a register, a special name and a number that are spelled in two ways, and a jump to
nowhere. -/
theorem letter_case_does_not_matter_to_loop :
    assemble "LOOP: LD I, lOoP ; HERE\nADD VA, 0xFB" = .ok [0xA2, 0x00, 0x7A, 0xFB] ∧
      assemble "loop: ld i, Loop ; here\nadd va, 0Xfb" = .ok [0xA2, 0x00, 0x7A, 0xFB] ∧
      ∃ r, assemble "ret\njp Nowhere" = .error r ∧ r.line = 2 := by
  have hloop : DifferInCase "LOOP: LD I, lOoP ; HERE\nADD VA, 0xFB"
      "loop: ld i, Loop ; here\nadd va, 0Xfb" := by decide
  have hjump : DifferInCase "RET\nJP nowhere" "ret\njp Nowhere" := by decide
  have hbytes : assemble "LOOP: LD I, lOoP ; HERE\nADD VA, 0xFB" =
      .ok [0xA2, 0x00, 0x7A, 0xFB] := by decide +kernel
  have hrefused : assemble "RET\nJP nowhere" = .error ⟨2, .unknownLabel "nowhere"⟩ := by
    decide +kernel
  refine ⟨hbytes, ?_, ?_⟩
  · obtain ⟨bytes, ha, hb⟩ | ⟨r, r', hr, -⟩ := letter_case_does_not_matter hloop
    · rw [hb, ← ha, hbytes]
    · cases hbytes.symm.trans hr
  · obtain ⟨bytes, ha, -⟩ | ⟨r, r', hr, hr', hline, -⟩ := letter_case_does_not_matter hjump
    · cases hrefused.symm.trans ha
    · obtain rfl := Except.error.inj (hrefused.symm.trans hr)
      exact ⟨r', hr', hline.symm⟩

end Chip8
