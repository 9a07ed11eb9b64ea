import Mathlib.Data.List.TakeWhile
import Chip8.Proofs.Assembly.Passes
import Chip8.Proofs.Assembly.Syntax

/-!
# Statements that are written and read

A statement in assembly text is one line without labels and comments, and reading that line gives
the statement back. What it takes is that no part of it can be cut: an operation or operand is
`Solid` when it has neither blanks nor any of the marks that the reader of lines looks for. So a
line is followed from its parts to the text and back, mark by mark.

Lines are independent of each other as long as there are no labels. What a line comes to on its own
is `Emits`, and a text of such lines comes to the bytes of its lines, one after the other.

## Main results

* `itemsOfLine_sentence` — a line that is written is read as its statement
* `assemble_lines` — a text of lines that emit bytes
-/

namespace Chip8

namespace Assembly

open Text

/-! ### Parts -/

/-- A text that is read as one part: there is something in it, and nothing to cut it at. -/
structure Solid (text : List Char) : Prop where
  ne_nil : text ≠ []
  whole : ∀ c ∈ text, isBlank c = false ∧ c ≠ ',' ∧ c ≠ ':' ∧ c ≠ ';'

variable {operation : List Char} {operands : List (List Char)}

theorem Solid.strip_eq {text : List Char} (h : Solid text) : strip text = text :=
  strip_of_all fun c hc => (h.whole c hc).1

/-- What stands behind an operation. -/
def behind : List (List Char) → List Char
  | [] => []
  | o :: os => ' ' :: joined ',' (o :: os.map (' ' :: ·))

theorem joined_spaced (o : List Char) (os : List (List Char)) :
    joined ',' (o :: os.map (' ' :: ·)) = [',', ' '].intercalate (o :: os) := by
  induction os generalizing o with
  | nil => simp [joined]
  | cons q qs ih =>
    rw [List.intercalate_cons_cons, ← ih q, List.map_cons, joined, joined_cons_cons,
      List.append_assoc]
    rfl

theorem toList_sentence (operation : String) (operands : List String) :
    (sentence operation operands).toList =
      operation.toList ++ behind (operands.map String.toList) := by
  cases operands with
  | nil => simp [sentence, behind]
  | cons o os =>
    rw [List.map_cons, behind, joined_spaced]
    simp [sentence, String.toList_intercalate]

theorem mem_behind {c : Char} (h : c ∈ behind operands) :
    c = ' ' ∨ c = ',' ∨ ∃ o ∈ operands, c ∈ o := by
  cases operands with
  | nil => cases h
  | cons o os =>
    rcases List.mem_cons.mp h with h | h
    · exact .inl h
    · obtain h | ⟨p, hp, hc⟩ := mem_joined h
      · exact .inr (.inl h)
      · rcases List.mem_cons.mp hp with rfl | hp
        · exact .inr (.inr ⟨p, List.mem_cons_self, hc⟩)
        · obtain ⟨q, hq, rfl⟩ := List.mem_map.mp hp
          rcases List.mem_cons.mp hc with hc | hc
          · exact .inl hc
          · exact .inr (.inr ⟨q, List.mem_cons_of_mem o hq, hc⟩)

/-- The operands behind an operation are found again. -/
theorem operandsOf_behind (h : ∀ o ∈ operands, Solid o) :
    operandsOf (behind operands) = operands := by
  cases operands with
  | nil => rfl
  | cons o os =>
    rw [List.forall_mem_cons] at h
    obtain ⟨ho, hos⟩ := h
    obtain ⟨c, cs, rfl⟩ := List.exists_cons_of_ne_nil ho.ne_nil
    have hc : isBlank c = false := (ho.whole c List.mem_cons_self).1
    have hcut : pieces ',' (joined ',' ((c :: cs) :: os.map (' ' :: ·))) =
        (c :: cs) :: os.map (' ' :: ·) := by
      refine pieces_joined (List.cons_ne_nil _ _) fun p hp hm => ?_
      rcases List.mem_cons.mp hp with rfl | hp
      · exact (ho.whole _ hm).2.1 rfl
      · obtain ⟨q, hq, rfl⟩ := List.mem_map.mp hp
        rcases List.mem_cons.mp hm with hm | hm
        · exact absurd hm (by decide)
        · exact ((hos q hq).whole _ hm).2.1 rfl
    have hstrip : (os.map (' ' :: ·)).map strip = os := by
      rw [List.map_map]
      refine (List.map_congr_left fun q hq => ?_).trans (List.map_id os)
      exact (strip_cons (by decide) q).trans (hos q hq).strip_eq
    have hleft : stripLeft (behind ((c :: cs) :: os)) =
        joined ',' ((c :: cs) :: os.map (' ' :: ·)) := by
      rw [behind, stripLeft, List.dropWhile_cons, if_pos (by decide), joined_cons_cons,
        List.dropWhile_cons, if_neg (by simp [hc])]
    rw [joined_cons_cons] at hleft hcut
    rw [operandsOf, hleft]
    change (pieces ',' (c :: joined ',' (cs :: os.map (' ' :: ·)))).map strip = _
    rw [hcut, List.map_cons, ho.strip_eq, hstrip]

/-! ### Lines -/

/-- Nothing in a line ends it, or its labels, or its statement. -/
theorem mem_line (ho : Solid operation) (h : ∀ o ∈ operands, Solid o) {c : Char}
    (hc : c ∈ operation ++ behind operands) : c ≠ '\n' ∧ c ≠ ':' ∧ c ≠ ';' := by
  have hsolid : ∀ text, Solid text → c ∈ text → c ≠ '\n' ∧ c ≠ ':' ∧ c ≠ ';' := by
    intro text htext hm
    obtain ⟨hblank, -, hcolon, hsemicolon⟩ := htext.whole c hm
    refine ⟨?_, hcolon, hsemicolon⟩
    rintro rfl
    exact absurd hblank (by decide)
  rcases List.mem_append.mp hc with hc | hc
  · exact hsolid operation ho hc
  · obtain rfl | rfl | ⟨o, hmem, hc⟩ := mem_behind hc
    · decide
    · decide
    · exact hsolid o (h o hmem) hc

theorem Solid.endsSolid {text : List Char} (h : Solid text) : EndsSolid text :=
  ⟨text.dropLast, text.getLast h.ne_nil, (List.dropLast_concat_getLast h.ne_nil).symm,
    (h.whole _ (List.getLast_mem h.ne_nil)).1⟩

theorem endsSolid_line (ho : Solid operation) (h : ∀ o ∈ operands, Solid o) :
    EndsSolid (operation ++ behind operands) := by
  cases operands with
  | nil => simpa [behind] using ho.endsSolid
  | cons o os =>
    rw [List.forall_mem_cons] at h
    have hps : ∀ p ∈ o :: os.map (' ' :: ·), EndsSolid p := by
      intro p hp
      rcases List.mem_cons.mp hp with rfl | hp
      · exact h.1.endsSolid
      · obtain ⟨q, hq, rfl⟩ := List.mem_map.mp hp
        exact (h.2 q hq).endsSolid.append [' ']
    exact ((endsSolid_joined (List.cons_ne_nil _ _) hps).append [' ']).append operation

/-- A line has no blanks at its ends. -/
theorem strip_line (ho : Solid operation) (h : ∀ o ∈ operands, Solid o) :
    strip (operation ++ behind operands) = operation ++ behind operands := by
  refine strip_eq_self ?_ ?_
  · intro c hc
    rw [List.head?_append_of_ne_nil _ ho.ne_nil] at hc
    exact (ho.whole c (List.mem_of_mem_head? hc)).1
  · obtain ⟨init, c, hline, hc⟩ := endsSolid_line ho h
    rw [hline]
    simpa using hc

/-- The text of a statement without blanks at its ends is read as that statement. -/
theorem parse_line (ho : Solid operation) (hu : upper operation = operation)
    (h : ∀ o ∈ operands, Solid o) :
    Statement.parse (operation ++ behind operands) = .ok (some ⟨operation, operands⟩) := by
  have hop : ∀ c ∈ operation, (!isBlank c) = true := fun c hc => by rw [(ho.whole c hc).1]; rfl
  have hbehind : (behind operands).takeWhile (!isBlank ·) = [] ∧
      (behind operands).dropWhile (!isBlank ·) = behind operands := by
    cases operands <;> exact ⟨rfl, rfl⟩
  have htake : (operation ++ behind operands).takeWhile (!isBlank ·) = operation := by
    rw [List.takeWhile_append_of_pos hop, hbehind.1, List.append_nil]
  have hdrop : (operation ++ behind operands).dropWhile (!isBlank ·) = behind operands := by
    rw [List.dropWhile_append_of_pos hop, hbehind.2]
  have hfull : operands.any List.isEmpty = false := by
    refine List.any_eq_false.mpr fun o hmem => ?_
    simpa using (h o hmem).ne_nil
  have hne : operation ++ behind operands ≠ [] := List.append_ne_nil_of_left_ne_nil ho.ne_nil _
  unfold Statement.parse
  split
  · next heq => exact absurd heq hne
  · simp only [htake, hdrop, operandsOf_behind h, hfull, hu]
    rfl

theorem itemsOfLine_line (ho : Solid operation) (hu : upper operation = operation)
    (h : ∀ o ∈ operands, Solid o) (number : Nat) :
    itemsOfLine number (operation ++ behind operands) =
      .ok [⟨number, .statement ⟨operation, operands⟩⟩] := by
  have hcomment : withoutComment (operation ++ behind operands) = operation ++ behind operands := by
    have hall : ∀ c ∈ operation ++ behind operands, decide (c ≠ ';') = true :=
      fun c hc => decide_eq_true (mem_line ho h hc).2.2
    exact List.takeWhile_eq_self_iff.mpr hall
  have hpiece : pieces ':' (operation ++ behind operands) = [operation ++ behind operands] :=
    pieces_of_not_mem fun hm => (mem_line ho h hm).2.1 rfl
  rw [itemsOfLine, hcomment, hpiece, leadingLabels, strip_line ho h]
  simp only [parse_line ho hu h]
  rfl

theorem solid_iff {text : List Char} :
    Solid text ↔ text ≠ [] ∧
      (text.all fun c => !isBlank c && c != ',' && c != ':' && c != ';') = true := by
  simp only [List.all_eq_true, Bool.and_eq_true, Bool.not_eq_true', bne_iff_ne, and_assoc]
  exact ⟨fun h => ⟨h.ne_nil, h.whole⟩, fun h => ⟨h.1, h.2⟩⟩

instance (text : List Char) : Decidable (Solid text) := decidable_of_iff _ solid_iff.symm

theorem solid_name (o : Operation) : Solid o.name.toList ∧ upper o.name.toList = o.name.toList := by
  cases o <;> decide

/-- A line that is written is read as its statement. -/
theorem itemsOfLine_sentence (o : Operation) {operands : List String}
    (h : ∀ t ∈ operands, Solid t.toList) (number : Nat) :
    itemsOfLine number (sentence o.name operands).toList =
      .ok [⟨number, .statement ⟨o.name.toList, operands.map String.toList⟩⟩] := by
  rw [toList_sentence]
  exact itemsOfLine_line (solid_name o).1 (solid_name o).2 (List.forall_mem_map.mpr h) number

/-! ### Texts -/

/-- A line that comes to some bytes on its own: it is read as one statement without labels, wherever
it stands. -/
structure Emits (line : String) (bytes : List UInt8) : Prop where
  one : '\n' ∉ line.toList
  reads : ∃ s, (∀ number, itemsOfLine number line.toList = .ok [⟨number, .statement s⟩]) ∧
    encode [] s = .ok bytes

theorem Emits.of_sentence (o : Operation) {operands : List String} {bytes : List UInt8}
    (h : ∀ t ∈ operands, Solid t.toList)
    (he : encode [] ⟨o.name.toList, operands.map String.toList⟩ = .ok bytes) :
    Emits (sentence o.name operands) bytes where
  one := by
    rw [toList_sentence]
    exact fun hm => (mem_line (solid_name o).1 (List.forall_mem_map.mpr h) hm).1 rfl
  reads := ⟨_, itemsOfLine_sentence o h, he⟩

/-- What the passes find in lines that emit bytes. The lines are counted from `number`. -/
structure Numbered (number : Nat) (lines : List String) (bytes : List UInt8)
    (its : List Located) : Prop where
  one : ∀ line ∈ lines, '\n' ∉ line.toList
  items_eq : ((lines.map String.toList).zipIdx number).mapM
    (fun (line, number) => itemsOfLine number line) = .ok (its.map ([·]))
  labels_eq : ∀ here, collectLabels here [] its = .ok []
  bytes_eq : encodeItems [] its = .ok bytes
  lines_eq : its.map (·.line) = List.range' number lines.length

theorem exists_numbered {lines : List String} {bss : List (List UInt8)}
    (h : List.Forall₂ Emits lines bss) (number : Nat) :
    ∃ its, Numbered number lines bss.flatten its := by
  induction h generalizing number with
  | nil => exact ⟨[], by simp, rfl, fun _ => rfl, rfl, rfl⟩
  | @cons line bytes lines bss hline _ ih =>
    obtain ⟨its, hone, hi, hl, hb, hn⟩ := ih (number + 1)
    obtain ⟨s, hs, he⟩ := hline.reads
    refine ⟨⟨number, .statement s⟩ :: its, List.forall_mem_cons.mpr ⟨hline.one, hone⟩, ?_,
      fun here => hl _, ?_, ?_⟩
    · rw [List.map_cons, List.zipIdx_cons, List.mapM_cons]
      exact bind_eq_ok_iff.mpr ⟨_, hs number, bind_eq_ok_iff.mpr ⟨_, hi, rfl⟩⟩
    · exact encodeItems_cons_eq_ok_iff.mpr
        ⟨bytes, _, encodeItem_statement_eq_ok_iff.mpr he, hb, rfl⟩
    · rw [List.map_cons, hn]
      rfl

/-- The items of a text of lines. An empty text is one empty line, and it has no items either. -/
theorem Numbered.items_joined {lines : List String} {bytes : List UInt8} {its : List Located}
    (h : Numbered 1 lines bytes its) :
    items ("\n".intercalate lines).toList = .ok its := by
  have hflat : (its.map ([·])).flatten = its := by
    rw [← List.flatMap_def, List.flatMap_singleton']
  cases lines with
  | nil =>
    have hnil : its = [] := List.map_eq_nil_iff.mp h.lines_eq
    rw [hnil]
    rfl
  | cons line lines =>
    have hcut : pieces '\n' ("\n".intercalate (line :: lines)).toList =
        (line :: lines).map String.toList := by
      rw [String.toList_intercalate, show "\n".toList = ['\n'] from rfl, ← joined_eq_intercalate]
      exact pieces_joined (List.cons_ne_nil _ _) (List.forall_mem_map.mpr h.one)
    rw [items, hcut, h.items_eq]
    exact congrArg Except.ok hflat

theorem Numbered.lastLine_eq {lines : List String} {bytes : List UInt8} {its : List Located}
    (h : Numbered 1 lines bytes its) : lastLine its = lines.length := by
  rw [lastLine, ← List.getLast?_map, h.lines_eq, List.getLast?_range']
  split
  · next h0 => simp [h0]
  · simp

/-- A text of lines comes to the bytes of its lines, unless there are too many of them. -/
theorem assemble_lines {lines : List String} {bss : List (List UInt8)}
    (h : List.Forall₂ Emits lines bss) :
    assemble ("\n".intercalate lines) =
      if maxProgramSize < bss.flatten.length then
        .error ⟨lines.length, .programTooLong bss.flatten.length maxProgramSize⟩
      else .ok bss.flatten := by
  obtain ⟨its, hn⟩ := exists_numbered h 1
  rw [assemble, assembleChars, hn.items_joined]
  change (collectLabels programStart [] its >>= _) = _
  rw [hn.labels_eq]
  change (encodeItems [] its >>= _) = _
  rw [hn.bytes_eq]
  change (if _ then Except.error (Refusal.mk (lastLine its) _) else _) = _
  rw [hn.lastLine_eq]
  rfl

end Assembly

end Chip8
