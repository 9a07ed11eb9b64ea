import Chip8.Proofs.Assembly.Layout
import Chip8.Proofs.Assembly.LineText
import Chip8.Proofs.Text.Radix

/-!
# Numbers that are written differently

A number in a source text can be written in another way, and the program stays the same. To say so
for every place in which a number can stand, the text is given with a gap in the place of an
operand. Where the gap is does not depend on what it is filled with, as long as that is cut nowhere:
the labels of the line end before it, and the commas around it stay the commas around it.

The encoder is asked nothing but numbers about a number. No number is a register or a special name,
and none is spelled like a label, although labels are looked up first.

## Main definitions

* `Gap` — a source text with a gap in the place of an operand
* `Gap.fill` — and with an operand in it

## Main results

* `Gap.readLine_line` — the operand is found where the gap was
* `exists_gap` — there is a gap in the place of every operand
* `number_notations_agree` — two spellings of one number
-/

namespace Chip8

namespace Text

variable {x y blank : Char} {xs ys : List Char}

theorem joined_middle (sep : Char) (left : List (List Char)) (p : List Char)
    (right : List (List Char)) :
    joined sep (left ++ p :: right) =
      left.flatMap (· ++ [sep]) ++ p ++ right.flatMap (sep :: ·) := by
  induction left with
  | nil =>
    induction right generalizing p with
    | nil => simp [joined]
    | cons q right ih => simpa [joined] using ih q
  | cons q left ih =>
    rw [List.cons_append, joined_cons_of_ne_nil sep q (by simp), ih]
    simp

/-- A blank between other characters is not stripped. -/
theorem mem_strip_of_inside (hx : x ∈ xs) (hxs : isBlank x = false) (hy : y ∈ ys)
    (hys : isBlank y = false) : blank ∈ strip (xs ++ blank :: ys) := by
  obtain ⟨solid, bs, hends, hbs, rfl⟩ := exists_endsSolid hy hys
  have hfront : xs = xs.takeWhile isBlank ++ stripLeft xs := List.takeWhile_append_dropWhile.symm
  have hmem : x ∈ stripLeft xs := by
    rw [hfront, List.mem_append] at hx
    refine hx.resolve_left fun hm => ?_
    rw [List.mem_takeWhile_imp hm] at hxs
    cases hxs
  obtain ⟨c, rest, hc⟩ := List.exists_cons_of_ne_nil (List.ne_nil_of_mem hmem)
  have hhead : isBlank c = false := by
    have hfirst := List.head?_dropWhile_not isBlank xs
    rw [show xs.dropWhile isBlank = c :: rest from hc] at hfirst
    exact hfirst
  have hstrip : strip (xs ++ blank :: (solid ++ bs)) = c :: rest ++ blank :: solid := by
    rw [← List.cons_append, ← List.append_assoc, strip_append_right hbs, hfront, List.append_assoc,
      strip_append_left fun _ hm => List.mem_takeWhile_imp hm, hc]
    exact ((hends.append [blank]).append (c :: rest)).strip_cons hhead
  rw [hstrip]
  simp

end Text

namespace Assembly

open Text

variable {labels : Labels} {a b operand cs : List Char} {n : Nat}

/-! ### Numbers -/

theorem special?_eq_none {table : List (String × Nat)} (htable : ∀ e ∈ table, e.1.toList ∈ names)
    (h : upper operand ∉ names) : special? table operand = none := by
  refine Option.eq_none_iff_forall_ne_some.mpr fun low hlow => h ?_
  obtain ⟨name, hmem, hu⟩ := special?_eq_some hlow
  exact hu ▸ htable _ hmem

theorem lookup_of_numeral? {k : Int} (h : numeral? operand = some k) (hn : labels.Named) :
    labels.lookup (upper operand) = none := by
  refine Option.eq_none_iff_forall_ne_some.mpr fun address hl => ?_
  obtain ⟨name, hname, hu⟩ := hn _ address hl
  rw [numeral?_eq_none_of_name hname hu] at h
  cases h

theorem Alike.refl (operand : List Char) : Alike labels operand operand :=
  ⟨rfl, rfl, rfl, rfl, rfl, Iff.rfl, Iff.rfl⟩

/-- Operands that are the same number can stand for each other. -/
theorem Alike.of_numeral? {k : Int} (ha : numeral? a = some k) (hb : numeral? b = some k)
    (hn : labels.Named) : Alike labels a b := by
  have hname {operand : List Char} (h : numeral? operand = some k) : upper operand ∉ names := by
    intro hm
    rw [numeral?_eq_none_of_upper hm] at h
    cases h
  have htargets : ∀ e ∈ specialTargets, e.1.toList ∈ names := by decide
  have hindex : ['I'] ∈ names := by decide
  have hbase : ['V', '0'] ∈ names := by decide
  constructor
  · rw [(special?_of_numeral ha).1, (special?_of_numeral hb).1]
  · rw [ha, hb]
  · rw [lookup_of_numeral? ha hn, lookup_of_numeral? hb hn]
  · rw [special?_eq_none htargets (hname ha), special?_eq_none htargets (hname hb)]
  · rw [(special?_of_numeral ha).2, (special?_of_numeral hb).2]
  · exact iff_of_false (fun h => hname ha (h ▸ hindex)) fun h => hname hb (h ▸ hindex)
  · exact iff_of_false (fun h => hname ha (h ▸ hbase)) fun h => hname hb (h ▸ hbase)

/-! ### Gaps -/

/-- The parts of a source text around an operand, as they are written. -/
structure GapText where
  /-- The lines above. -/
  above : List (List Char)
  /-- The labels of the line, without their colons. -/
  labels : List (List Char)
  before : List Char
  operation : List Char
  /-- The character behind the operation. -/
  blank : Char
  /-- The operands in front of the gap, without their commas. -/
  left : List (List Char)
  leading : List Char
  trailing : List Char
  /-- The operands behind the gap. -/
  right : List (List Char)
  comment : List Char
  /-- The lines below. -/
  below : List (List Char)

namespace GapText

/-- The statement in front of the gap. -/
def head (g : GapText) : List Char :=
  g.before ++ g.operation ++ g.blank :: g.left.flatMap (· ++ [','])

/-- The line in front of the gap. -/
def front (g : GapText) : List Char := labelText g.labels ++ g.head ++ g.leading

/-- The line behind the gap. -/
def back (g : GapText) : List Char := g.trailing ++ g.right.flatMap (',' :: ·) ++ g.comment

end GapText

/-- A source text with a gap in the place of an operand. -/
structure Gap extends GapText where
  names : ∀ l ∈ labels, isName (strip l) = true
  isOperation : IsOperation before operation blank
  blanks : (∀ c ∈ leading, isBlank c = true) ∧ ∀ c ∈ trailing, isBlank c = true
  commas : ∀ o ∈ left ++ right, ',' ∉ o
  isComment : IsComment comment
  /-- The labels end in front of the operation. -/
  noLabel : NoLabel toGapText.head
  /-- The comment starts behind the operands. -/
  code : ';' ∉ toGapText.front ∧ ∀ o ∈ right, ';' ∉ o
  /-- The line is one line, and so are the others. -/
  lines : ∀ l ∈ above ++ toGapText.front :: toGapText.back :: below, '\n' ∉ l

namespace Gap

/-- The line of a gap with an operand in it. -/
def line (g : Gap) (operand : List Char) : List Char := g.front ++ operand ++ g.back

/-- The source text with an operand in the gap. -/
def fill (g : Gap) (operand : List Char) : String := ofLines (g.above ++ g.line operand :: g.below)

/-- The operands of the statement as they are written. -/
def written (g : Gap) (operand : List Char) : List (List Char) :=
  g.left ++ (g.leading ++ operand ++ g.trailing) :: g.right

/-- The operands of the statement. -/
def operands (g : Gap) (operand : List Char) : List (List Char) :=
  g.left.map strip ++ operand :: g.right.map strip

variable (g : Gap)

theorem statementText_written (operand : List Char) :
    statementText g.before g.operation g.blank (g.written operand) =
      g.head ++ (g.leading ++ operand ++ (g.trailing ++ g.right.flatMap (',' :: ·))) := by
  rw [written, statementText, joined_middle, GapText.head]
  simp

theorem map_strip_written (h : Solid operand) :
    (g.written operand).map strip = g.operands operand := by
  rw [written, operands, List.map_append, List.map_cons, strip_append_right g.blanks.2,
    strip_append_left g.blanks.1, h.strip_eq]

theorem comma_not_mem_written (h : Solid operand) : ∀ o ∈ g.written operand, ',' ∉ o := by
  have hcommas := g.commas
  rw [List.forall_mem_append] at hcommas
  rw [written, List.forall_mem_append, List.forall_mem_cons]
  refine ⟨hcommas.1, ?_, hcommas.2⟩
  rw [List.mem_append, List.mem_append, not_or, not_or]
  exact ⟨⟨not_mem_of_blanks g.blanks.1 (by decide), fun hm => (h.whole _ hm).2.1 rfl⟩,
    not_mem_of_blanks g.blanks.2 (by decide)⟩

/-- No comment starts before the end of the statement. -/
theorem code_written (h : Solid operand) :
    ';' ∉ labelText g.labels ++ statementText g.before g.operation g.blank (g.written operand) := by
  have htext :
      labelText g.labels ++ statementText g.before g.operation g.blank (g.written operand) =
        g.front ++ operand ++ (g.trailing ++ g.right.flatMap (',' :: ·)) := by
    rw [statementText_written, GapText.front]
    simp
  rw [htext, List.mem_append, List.mem_append, List.mem_append, List.mem_flatMap]
  rintro ((hm | hm) | hm | ⟨o, ho, hm⟩)
  · exact g.code.1 hm
  · exact (h.whole _ hm).2.2.2 rfl
  · exact not_mem_of_blanks g.blanks.2 (by decide) hm
  · rcases List.mem_cons.mp hm with hm | hm
    · cases hm
    · exact g.code.2 o ho hm

/-- A colon behind the gap is behind a character of the operand, so what stands before it has a
blank inside. -/
theorem not_isName_of_behind (h : Solid operand) {rest p q : List Char}
    (heq : g.leading ++ operand ++ rest = p ++ ':' :: q) :
    isName (strip (g.head ++ p)) = false := by
  obtain ⟨o, os, rfl⟩ := List.exists_cons_of_ne_nil h.ne_nil
  have ho := h.whole o List.mem_cons_self
  obtain ⟨y, hy, hsolid⟩ : ∃ y ∈ p, isBlank y = false := by
    by_contra hnone
    have hblank : ∀ c ∈ p, isBlank c = true := fun c hc =>
      Bool.eq_true_of_not_eq_false fun hf => hnone ⟨c, hc, hf⟩
    have hdrop := congrArg (List.dropWhile isBlank) heq
    rw [List.append_assoc, List.dropWhile_append_of_pos g.blanks.1,
      List.dropWhile_append_of_pos hblank, List.cons_append,
      List.dropWhile_cons_of_neg (by simp [ho.1]), List.dropWhile_cons_of_neg (by decide)] at hdrop
    exact ho.2.2.1 (List.cons.inj hdrop).1
  obtain ⟨x, xs, hx⟩ := List.exists_cons_of_ne_nil g.isOperation.ne_nil
  have hinside : g.blank ∈ strip (g.head ++ p) := by
    rw [GapText.head, List.append_assoc, List.cons_append]
    refine mem_strip_of_inside (x := x) (List.mem_append_right _ (by simp [hx])) ?_
      (List.mem_append_right _ hy) hsolid
    exact g.isOperation.whole x (by simp [hx])
  refine Bool.eq_false_iff.mpr fun hname => not_mem_of_isName hname ?_ hinside
  exact isNamePart_of_isBlank g.isOperation.blank

/-- What is in the gap does not make a label of the statement. -/
theorem noLabel_written (h : Solid operand) :
    NoLabel (statementText g.before g.operation g.blank (g.written operand)) := by
  intro p q heq
  rw [statementText_written] at heq
  rcases List.append_eq_append_iff.mp heq with ⟨p', rfl, hrest⟩ | ⟨q', hhead, hrest⟩
  · exact g.not_isName_of_behind h hrest
  · cases q' with
    | nil =>
      have hcolon := g.not_isName_of_behind (p := []) h hrest.symm
      rwa [List.append_nil, hhead, List.append_nil] at hcolon
    | cons c q' =>
      obtain ⟨rfl, -⟩ := List.cons.inj hrest
      exact g.noLabel p q' hhead

/-- The line with an operand in it, in its parts. -/
def filled (h : Solid operand) : WrittenLine where
  labels := g.labels
  before := g.before
  operation := g.operation
  blank := g.blank
  operands := g.written operand
  comment := g.comment
  names := g.names
  isOperation := g.isOperation
  commas := g.comma_not_mem_written h
  isComment := g.isComment
  noLabel := g.noLabel_written h
  code := g.code_written h

theorem text_filled (h : Solid operand) : (g.filled h).text = g.line operand := by
  change labelText g.labels ++ statementText g.before g.operation g.blank (g.written operand) ++
    g.comment = g.line operand
  rw [statementText_written, line, GapText.front, GapText.back]
  simp

/-- The operand is found where the gap was. -/
theorem readLine_line (h : Solid operand) :
    readLine (g.line operand) =
      if (g.left.map strip ++ g.right.map strip).any List.isEmpty then
        .error (.emptyOperand (String.ofList (strip (g.filled h).statement)))
      else .ok (g.labels.map (.label <| strip ·) ++
        [.statement ⟨upper g.operation, g.operands operand⟩]) := by
  obtain ⟨o, os, rfl⟩ := List.exists_cons_of_ne_nil h.ne_nil
  have hmem : o ∈ joined ',' (g.written (o :: os)) := by
    rw [written, joined_middle]
    simp
  have hempty : (g.operands (o :: os)).any List.isEmpty =
      (g.left.map strip ++ g.right.map strip).any List.isEmpty := by
    simp [operands]
  rw [← g.text_filled h, (g.filled h).readLine_text hmem (h.whole o List.mem_cons_self).1,
    ← hempty, ← g.map_strip_written h]
  rfl

theorem sourceLines_fill (h : Solid operand) :
    sourceLines (g.fill operand) = g.above ++ g.line operand :: g.below := by
  have hlines := g.lines
  rw [List.forall_mem_append, List.forall_mem_cons, List.forall_mem_cons] at hlines
  obtain ⟨habove, hfront, hback, hbelow⟩ := hlines
  refine sourceLines_ofLines (by simp) ?_
  rw [List.forall_mem_append, List.forall_mem_cons]
  refine ⟨habove, ?_, hbelow⟩
  rw [line, List.mem_append, List.mem_append]
  rintro ((hm | hm) | hm)
  · exact hfront hm
  · exact absurd (h.whole _ hm).1 (by decide)
  · exact hback hm

/-- A line is read alike with operands that can stand for each other. -/
theorem readAlike_line (ha : Solid a) (hb : Solid b)
    (halike : ∀ labels : Labels, labels.Named → Alike labels a b) (number : Nat) :
    ReadAlike Refusal.unquoted Refusal.unquoted (itemsOfLine number (g.line a))
      (itemsOfLine number (g.line b)) := by
  rw [itemsOfLine_eq, itemsOfLine_eq, g.readLine_line ha, g.readLine_line hb]
  by_cases hempty : (g.left.map strip ++ g.right.map strip).any List.isEmpty = true
  · rw [if_pos hempty, if_pos hempty]
    exact .refusal rfl
  · rw [if_neg hempty, if_neg hempty]
    refine .items ?_
    rw [List.map_append, List.map_append]
    refine List.rel_append ?_ (.cons (.of_alike fun labels hn => ?_) .nil)
    · rw [List.map_map, List.forall₂_map_left_iff, List.forall₂_map_right_iff, List.forall₂_same]
      exact fun name _ => .label (fun _ _ => rfl) rfl rfl
    · have hsame (os : List (List Char)) : List.Forall₂ (Alike labels) os os :=
        List.forall₂_same.mpr fun o _ => .refl o
      exact List.rel_append (hsame _) (.cons (halike labels hn) (hsame _))

/-- So is a source text. -/
theorem assemble_fill (ha : Solid a) (hb : Solid b)
    (halike : ∀ labels : Labels, labels.Named → Alike labels a b) :
    (assemble (g.fill a)).mapError Refusal.unquoted =
      (assemble (g.fill b)).mapError Refusal.unquoted := by
  refine assembleChars_congr ?_
  rw [items_eq_itemsFrom, items_eq_itemsFrom]
  change ReadAlike _ _ (itemsFrom 1 (sourceLines (g.fill a))) (itemsFrom 1 (sourceLines (g.fill b)))
  rw [g.sourceLines_fill ha, g.sourceLines_fill hb, itemsFrom_append, itemsFrom_append,
    itemsFrom_cons, itemsFrom_cons]
  have hsame (number : Nat) (lines : List (List Char)) : ReadAlike Refusal.unquoted Refusal.unquoted
      (itemsFrom number lines) (itemsFrom number lines) := readAlike_of_lines lines fun _ _ _ => rfl
  exact (hsame _ _).append ((g.readAlike_line ha hb halike _).append (hsame _ _))

end Gap

/-! ### Every operand stands in a gap -/

namespace WrittenLine

variable {l : WrittenLine} {above below left right : List (List Char)}
  {leading trailing : List Char}

/-- The parts of a line around an operand. -/
def around (l : WrittenLine) (above left : List (List Char)) (leading trailing : List Char)
    (right below : List (List Char)) : GapText where
  above := above
  labels := l.labels
  before := l.before
  operation := l.operation
  blank := l.blank
  left := left
  leading := leading
  trailing := trailing
  right := right
  comment := l.comment
  below := below

theorem statement_around (above below : List (List Char))
    (hl : l.operands = left ++ (leading ++ operand ++ trailing) :: right) :
    l.statement = (l.around above left leading trailing right below).head ++
      (leading ++ operand ++ (trailing ++ right.flatMap (',' :: ·))) := by
  rw [statement, statementText, hl, joined_middle, GapText.head]
  simp [around]

theorem text_around (above below : List (List Char))
    (hl : l.operands = left ++ (leading ++ operand ++ trailing) :: right) :
    l.text = (l.around above left leading trailing right below).front ++ operand ++
      (l.around above left leading trailing right below).back := by
  rw [text, statement_around above below hl, GapText.front, GapText.back]
  simp [around]

/-- The gap in the place of an operand. -/
def gap (l : WrittenLine) (hl : l.operands = left ++ (leading ++ operand ++ trailing) :: right)
    (hblanks : (∀ c ∈ leading, isBlank c = true) ∧ ∀ c ∈ trailing, isBlank c = true)
    (hlines : ∀ line ∈ above ++ l.text :: below, '\n' ∉ line) : Gap where
  toGapText := l.around above left leading trailing right below
  names := l.names
  isOperation := l.isOperation
  blanks := hblanks
  commas := by
    have hcommas := l.commas
    rw [hl, List.forall_mem_append, List.forall_mem_cons] at hcommas
    exact List.forall_mem_append.mpr ⟨hcommas.1, hcommas.2.2⟩
  isComment := l.isComment
  noLabel := by
    have hnoLabel : NoLabel l.statement := l.noLabel
    rw [statement_around above below hl] at hnoLabel
    exact hnoLabel.of_append
  code := by
    have hcode : ';' ∉ labelText l.labels ++ l.statement := l.code
    rw [statement_around above below hl] at hcode
    simp only [List.mem_append, List.mem_flatMap, not_or] at hcode
    obtain ⟨hlabels, hhead, ⟨hleading, -⟩, -, hright⟩ := hcode
    constructor
    · rw [GapText.front, List.mem_append, List.mem_append, not_or, not_or]
      exact ⟨⟨hlabels, hhead⟩, hleading⟩
    · intro o ho hm
      exact hright ⟨o, ho, List.mem_cons_of_mem _ hm⟩
  lines := by
    rw [List.forall_mem_append, List.forall_mem_cons, text_around above below hl,
      List.mem_append, List.mem_append, not_or, not_or] at hlines
    obtain ⟨habove, ⟨⟨hfront, -⟩, hback⟩, hbelow⟩ := hlines
    rw [List.forall_mem_append, List.forall_mem_cons, List.forall_mem_cons]
    exact ⟨habove, hfront, hback, hbelow⟩

end WrittenLine

/-- A line that is read leaves a gap in the place of each operand. -/
theorem exists_gap_of_readLine {line : List Char} {is : List Item} {s : Statement}
    {left right above below : List (List Char)} (h : readLine line = .ok is)
    (hs : .statement s ∈ is) (ho : s.operands = left ++ operand :: right)
    (hlines : ∀ l ∈ above ++ line :: below, '\n' ∉ l) :
    ∃ g : Gap, g.fill operand = ofLines (above ++ line :: below) ∧ g.above = above ∧
      upper g.operation = s.operation ∧ g.left.map strip = left ∧ g.right.map strip = right := by
  obtain ⟨l, rfl, hoperation, hoperands⟩ := exists_writtenLine h hs (by simp [ho])
  rw [ho, List.map_eq_append_iff] at hoperands
  obtain ⟨written, rest, hwritten, hleft, hrest⟩ := hoperands
  obtain ⟨p, written', rfl, hp, hright⟩ := List.map_eq_cons_iff.mp hrest
  obtain ⟨leading, trailing, hleading, htrailing, hoperand⟩ := exists_strip p
  rw [hp] at hoperand
  rw [hoperand] at hwritten
  refine ⟨l.gap hwritten ⟨hleading, htrailing⟩ hlines, ?_, rfl, hoperation, hleft, hright⟩
  rw [WrittenLine.text_around above below hwritten]
  rfl

/-- There is a gap in the place of every operand that is read. -/
theorem exists_gap {source : String} {its : List Located} {number : Nat} {s : Statement}
    {left right : List (List Char)} (h : items source.toList = .ok its)
    (hs : ⟨number, .statement s⟩ ∈ its) (ho : s.operands = left ++ operand :: right) :
    ∃ g : Gap, g.fill operand = source ∧ number = g.above.length + 1 ∧
      upper g.operation = s.operation ∧ g.left.map strip = left ∧ g.right.map strip = right := by
  obtain ⟨per, hper, rfl⟩ := items_eq_ok_iff.mp h
  obtain ⟨found, hfound, hmem⟩ := List.mem_flatten.mp hs
  obtain ⟨⟨line, n⟩, hline, hitems⟩ := exists_of_mem_mapM hper hfound
  obtain ⟨is, his, rfl⟩ := itemsOfLine_eq_ok_iff.mp hitems
  obtain ⟨item, hitem, heq⟩ := List.mem_map.mp hmem
  obtain ⟨rfl, rfl⟩ := Located.mk.inj heq
  obtain ⟨hn, hline⟩ := List.mk_mem_zipIdx_iff_le_and_getElem?_sub.mp hline
  change (sourceLines source)[n - 1]? = some line at hline
  obtain ⟨hlt, hat⟩ := List.getElem?_eq_some_iff.mp hline
  have hsource : sourceLines source =
      (sourceLines source).take (n - 1) ++ line :: (sourceLines source).drop (n - 1 + 1) := by
    rw [← hat, List.getElem_cons_drop, List.take_append_drop]
  have hlines : ∀ l ∈ (sourceLines source).take (n - 1) ++
      line :: (sourceLines source).drop (n - 1 + 1), '\n' ∉ l := by
    rw [← hsource]
    exact fun l hl => not_mem_of_mem_sourceLines hl
  obtain ⟨g, hfill, habove, hoperation, hleft, hright⟩ := exists_gap_of_readLine his hitem ho hlines
  refine ⟨g, ?_, ?_, hoperation, hleft, hright⟩
  · rw [hfill, ← hsource, ofLines, sourceLines, joined_pieces, String.ofList_toList]
  · rw [habove, List.length_take]
    omega

/-! ### Spellings -/

theorem solid_of_spelling (h : Spelling n cs) : Solid cs :=
  ⟨h.whole.1, h.whole.2⟩

/-- A number is accepted as itself, or it is too large, however it is written. -/
theorem number_of_spelling (h : Spelling n cs) (unit : Unit) :
    number unit cs =
      if n ≤ unit.limit then .ok n else .error (.tooLarge unit (String.ofList cs)) := by
  have hrange : (0 ≤ (n : Int) ∧ (n : Int) ≤ unit.limit) ↔ n ≤ unit.limit := by omega
  rw [number, numeral?_of_spelling h]
  exact if_congr hrange rfl rfl

/-- So is an address, since no label is a number. -/
theorem address_of_spelling (h : Spelling n cs) (hn : labels.Named) :
    address labels cs =
      if n ≤ 0xFFF then .ok n else .error (.addressTooLarge (String.ofList cs)) := by
  have hvalue : addressValue? labels cs = some (n : Int) := by
    rw [addressValue?, lookup_of_numeral? (numeral?_of_spelling h) hn, numeral?_of_spelling h]
  have hrange : (0 ≤ (n : Int) ∧ (n : Int) ≤ 0xFFF) ↔ n ≤ 0xFFF := by omega
  rw [address, hvalue]
  exact if_congr hrange rfl rfl

/-- Two texts that come to the same but for quotes. -/
theorem eq_or_refused {source source' : String}
    (h : (assemble source).mapError Refusal.unquoted =
      (assemble source').mapError Refusal.unquoted) :
    (∃ bytes, assemble source = .ok bytes ∧ assemble source' = .ok bytes) ∨
      ∃ r r', assemble source = .error r ∧ assemble source' = .error r' ∧ r.line = r'.line ∧
        r.problem.unquoted = r'.problem.unquoted := by
  generalize assemble source = x at h ⊢
  generalize assemble source' = y at h ⊢
  cases x with
  | ok bytes =>
    cases y with
    | ok bytes' => exact .inl ⟨bytes, rfl, congrArg Except.ok (Except.ok.inj h).symm⟩
    | error r' => cases h
  | error r =>
    cases y with
    | ok bytes' => cases h
    | error r' =>
      obtain ⟨hline, hproblem⟩ := Refusal.mk.inj (Except.error.inj h)
      exact .inr ⟨r, r', rfl, rfl, hline, hproblem⟩

end Assembly

open Assembly Text

/-- All spellings of a number are read as that number. Where a number or an address is expected,
they are accepted as it or are all too large. In the place of any operand of a source text, one can
be written for another: the text comes to the same bytes, or it is refused on the same line for the
same reason. -/
theorem number_notations_agree {n : Nat} {cs cs' : List Char} (h : Spelling n cs)
    (h' : Spelling n cs') :
    numeral? cs = some (n : Int) ∧
    (∀ unit, number unit cs =
      if n ≤ unit.limit then .ok n else .error (.tooLarge unit (String.ofList cs))) ∧
    (∀ labels : Labels, labels.Named → address labels cs =
      if n ≤ 0xFFF then .ok n else .error (.addressTooLarge (String.ofList cs))) ∧
    (∀ g : Gap,
      (∃ bytes, assemble (g.fill cs) = .ok bytes ∧ assemble (g.fill cs') = .ok bytes) ∨
        ∃ r r', assemble (g.fill cs) = .error r ∧ assemble (g.fill cs') = .error r' ∧
          r.line = r'.line ∧ r.problem.unquoted = r'.problem.unquoted) ∧
    ∀ (source : String) its number s left right, items source.toList = .ok its →
      ⟨number, .statement s⟩ ∈ its → s.operands = left ++ cs :: right →
      ∃ g : Gap, g.fill cs = source ∧ number = g.above.length + 1 ∧
        upper g.operation = s.operation ∧ g.left.map strip = left ∧ g.right.map strip = right := by
  refine ⟨numeral?_of_spelling h, number_of_spelling h, fun labels hn => address_of_spelling h hn,
    fun g => eq_or_refused ?_,
    fun source its number s left right hits hs ho => exists_gap hits hs ho⟩
  refine g.assemble_fill (solid_of_spelling h) (solid_of_spelling h') fun labels hn => ?_
  exact .of_numeral? (numeral?_of_spelling h) (numeral?_of_spelling h') hn

/-- A gap behind a label and a first operand, and in front of a comment. -/
def dataGap : Gap where
  above := ["JP L".toList]
  labels := ["L ".toList]
  before := [' ']
  operation := ['d', 'b']
  blank := '\t'
  left := ["1".toList]
  leading := [' ']
  trailing := [' ']
  right := []
  comment := ";:".toList
  below := []
  names := by decide
  isOperation := ⟨List.forall_mem_singleton.mpr rfl, List.cons_ne_nil _ _,
    List.forall_mem_cons.mpr ⟨rfl, List.forall_mem_singleton.mpr rfl⟩, rfl⟩
  blanks := ⟨List.forall_mem_singleton.mpr rfl, List.forall_mem_singleton.mpr rfl⟩
  commas := by decide
  isComment := fun c hc => (Option.some.inj hc).symm
  noLabel := noLabel_of_not_mem (by decide)
  code := by decide
  lines := by decide

/-- A byte in bases two and sixteen, and a number that is too large for a byte. -/
theorem number_notations_agree_on_ten :
    numeral? "0B1_010".toList = some 10 ∧
    assemble "JP L\nL : db\t1, 0B1_010 ;:" = .ok [0x12, 0x02, 0x01, 0x0A] ∧
    assemble "JP L\nL : db\t1, 0x0a ;:" = .ok [0x12, 0x02, 0x01, 0x0A] ∧
    ∃ r, assemble "JP L\nL : db\t1, 2_56 ;:" = .error r ∧ r.line = 2 ∧
      r.problem.unquoted = .tooLarge .byte "" := by
  have digit {c : Char} {d : Nat} (h : decimalValue? c = some d) : IsDigit c d := .decimal h
  have hbinary : Spelling 10 "0B1_010".toList := by
    have hrun : DigitRun 2 [1, 0, 1, 0] "1_010".toList :=
      .underscore (digit (by decide)) (by decide) (.cons (digit (by decide)) (by decide)
        (.cons (digit (by decide)) (by decide) (.last (digit (by decide)) (by decide))))
    exact .binary (.inr rfl) hrun (by decide)
  have hsmall : Spelling 10 "0x0a".toList := by
    have hrun : DigitRun 16 [0, 10] "0a".toList := .cons (digit (by decide)) (by decide)
      (.last (.small (by decide) (by decide) (by decide)) (by decide))
    exact .hexadecimal (.inl rfl) hrun (by decide)
  have hlarge : Spelling 256 "0x0100".toList := spelling_hexChars 4 256
  have hdecimal : Spelling 256 "2_56".toList := by
    have hrun : DigitRun 10 [2, 5, 6] "2_56".toList := .underscore (digit (by decide)) (by decide)
      (.cons (digit (by decide)) (by decide) (.last (digit (by decide)) (by decide)))
    exact .decimal hrun (by decide) (by decide)
  have hbytes : assemble "JP L\nL : db\t1, 0B1_010 ;:" = .ok [0x12, 0x02, 0x01, 0x0A] := by
    decide +kernel
  have hrefused : assemble "JP L\nL : db\t1, 0x0100 ;:" = .error ⟨2, .tooLarge .byte "0x0100"⟩ := by
    decide +kernel
  obtain ⟨hten, -, -, hsame, -⟩ := number_notations_agree hbinary hsmall
  obtain ⟨-, -, -, hboth, -⟩ := number_notations_agree hlarge hdecimal
  refine ⟨hten, hbytes, ?_, ?_⟩
  · obtain ⟨bytes, ha, hb⟩ | ⟨r, r', hr, -⟩ := hsame dataGap
    · obtain rfl := Except.ok.inj (hbytes.symm.trans ha)
      exact hb
    · cases hbytes.symm.trans hr
  · obtain ⟨bytes, ha, -⟩ | ⟨r, r', hr, hr', hline, hproblem⟩ := hboth dataGap
    · cases hrefused.symm.trans ha
    · obtain rfl := Except.error.inj (hrefused.symm.trans hr)
      exact ⟨r', hr', hline.symm, hproblem.symm⟩

end Chip8
