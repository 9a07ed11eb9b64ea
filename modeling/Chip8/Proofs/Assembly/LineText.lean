import Chip8.Proofs.Assembly.LetterCase
import Chip8.Proofs.Assembly.Written

/-!
# Lines as they are written

A line falls into labels, a statement and a comment, and a statement into an operation and its
operands. Reading takes it apart and throws away what does not count. Here it is put together, with
every blank in its place, and what is read in it follows from its parts.

Each line can be written in this way, so nothing is lost by starting from the parts. The one thing
to look after is where the labels end: a colon further on belongs to the statement as soon as what
stands before it is no name.

## Main definitions

* `labelText`, `statementText` — labels and statements as they are written
* `NoLabel` — texts that do not start with a label
* `WrittenLine` — a line in its parts

## Main results

* `WrittenLine.readLine_text` — what is read in a line
* `exists_writtenLine` — the parts of a line that is read
-/

namespace Chip8

namespace Text

variable {sep c : Char} {as bs cs : List Char}

/-! ### Blanks around a text -/

/-- Nothing but blanks is stripped. -/
theorem exists_strip (cs : List Char) :
    ∃ as bs, (∀ c ∈ as, isBlank c = true) ∧ (∀ c ∈ bs, isBlank c = true) ∧
      cs = as ++ strip cs ++ bs := by
  have hblank : ∀ cs : List Char, ∀ c ∈ cs.takeWhile isBlank, isBlank c = true := fun _ _ hc =>
    List.mem_takeWhile_imp hc
  refine ⟨cs.takeWhile isBlank, ((stripLeft cs).reverse.takeWhile isBlank).reverse, hblank cs,
    ?_, ?_⟩
  · exact fun c hc => hblank _ c (List.mem_reverse.mp hc)
  · rw [strip, stripRight, List.append_assoc, ← List.reverse_append,
      List.takeWhile_append_dropWhile, List.reverse_reverse, stripLeft,
      List.takeWhile_append_dropWhile]

theorem mem_strip (hc : c ∈ cs) (h : isBlank c = false) : c ∈ strip cs := by
  obtain ⟨as, bs, has, hbs, hcs⟩ := exists_strip cs
  rw [hcs, List.mem_append, List.mem_append] at hc
  rcases hc with (hc | hc) | hc
  · exact absurd (has c hc) (by simp [h])
  · exact hc
  · exact absurd (hbs c hc) (by simp [h])

/-- A text that is more than blanks is followed by its last blanks. -/
theorem exists_endsSolid (hc : c ∈ cs) (h : isBlank c = false) :
    ∃ solid bs, EndsSolid solid ∧ (∀ c ∈ bs, isBlank c = true) ∧ cs = solid ++ bs := by
  induction cs using List.reverseRecOn with
  | nil => cases hc
  | append_singleton cs d ih =>
    by_cases hd : isBlank d = true
    · have hmem : c ∈ cs := by
        rcases List.mem_append.mp hc with hc | hc
        · exact hc
        · rw [List.mem_singleton.mp hc, hd] at h
          cases h
      obtain ⟨solid, bs, hsolid, hbs, rfl⟩ := ih hmem
      refine ⟨solid, bs ++ [d], hsolid, ?_, List.append_assoc ..⟩
      rw [List.forall_mem_append]
      exact ⟨hbs, List.forall_mem_singleton.mpr hd⟩
    · exact ⟨cs ++ [d], [], ⟨cs, d, rfl, Bool.eq_false_iff.mpr hd⟩, List.forall_mem_nil _,
        (List.append_nil _).symm⟩

/-- A text with other characters at both ends is left alone. -/
theorem EndsSolid.strip_cons (h : EndsSolid (c :: cs)) (hc : isBlank c = false) :
    strip (c :: cs) = c :: cs := by
  obtain ⟨init, last, hcs, hlast⟩ := h
  refine strip_eq_self (fun d hd => ?_) (fun d hd => ?_)
  · obtain rfl := Option.some.inj hd
    exact hc
  · rw [hcs, List.getLast?_concat] at hd
    obtain rfl := Option.some.inj hd
    exact hlast

theorem not_mem_of_blanks (h : ∀ c ∈ as, isBlank c = true) (hsep : isBlank sep = false) :
    sep ∉ as := by
  intro hm
  rw [h sep hm] at hsep
  cases hsep

/-- Blanks around a text go to its first and last piece. -/
theorem map_strip_pieces (hsep : isBlank sep = false) (has : ∀ c ∈ as, isBlank c = true)
    (hbs : ∀ c ∈ bs, isBlank c = true) (cs : List Char) :
    (pieces sep (as ++ cs ++ bs)).map strip = (pieces sep cs).map strip := by
  have hfirst : (pieces sep (as ++ cs)).map strip = (pieces sep cs).map strip := by
    obtain ⟨p, ps, hp⟩ := List.exists_cons_of_ne_nil (pieces_ne_nil sep cs)
    rw [pieces_append_first (not_mem_of_blanks has hsep) hp, hp, List.map_cons, List.map_cons,
      strip_append_left has]
  obtain ⟨ps, p, hp⟩ := (List.eq_nil_or_concat _).resolve_left (pieces_ne_nil sep (as ++ cs))
  rw [List.concat_eq_append] at hp
  rw [← hfirst, pieces_append_last (not_mem_of_blanks hbs hsep) hp, hp, List.map_append,
    List.map_append, List.map_singleton, List.map_singleton, strip_append_right hbs]

end Text

namespace Assembly

open Text

variable {labels : List (List Char)} {cs comment name before operation : List Char}
  {operands : List (List Char)} {blank : Char}

/-! ### Labels -/

/-- Labels as they are written, each with its colon. -/
def labelText (labels : List (List Char)) : List Char := labels.flatMap (· ++ [':'])

/-- A text that does not start with a label: what stands before a colon is no name. -/
def NoLabel (text : List Char) : Prop :=
  ∀ p q, text = p ++ ':' :: q → isName (strip p) = false

theorem noLabel_of_not_mem (h : ':' ∉ cs) : NoLabel cs := by
  rintro p q rfl
  exact absurd (by simp) h

theorem NoLabel.of_append {head rest : List Char} (h : NoLabel (head ++ rest)) : NoLabel head := by
  rintro p q rfl
  exact h p (q ++ rest) (by simp)

theorem isNamePart_of_isBlank {c : Char} (h : isBlank c = true) : isNamePart c = false := by
  rw [isNamePart, Bool.or_eq_false_iff]
  constructor
  · refine Bool.eq_false_iff.mpr fun ha => ?_
    rw [isBlank_of_isAlphanum ha] at h
    cases h
  · rw [beq_eq_false_iff_ne]
    rintro rfl
    cases h

theorem not_mem_of_isName (h : isName name = true) {c : Char} (hc : isNamePart c = false) :
    c ∉ name := by
  intro hm
  have hall : ∀ d ∈ name, isNamePart d = true := by
    obtain _ | ⟨d, ds⟩ := name
    · cases hm
    · rw [isName, Bool.and_eq_true, List.all_eq_true] at h
      exact List.forall_mem_cons.mpr ⟨isNamePart_of_isNameStart h.1, h.2⟩
  rw [hall c hm] at hc
  cases hc

theorem not_mem_of_isName_strip (h : isName (strip name) = true) : ':' ∉ name := by
  intro hm
  exact not_mem_of_isName h (by decide) (mem_strip hm (by decide))

/-- Labels at the start of a line are read, and then the rest. -/
theorem leadingLabels_labelText (h : ∀ l ∈ labels, isName (strip l) = true) (rest : List Char) :
    leadingLabels (pieces ':' (labelText labels ++ rest)) =
      (labels.map strip ++ (leadingLabels (pieces ':' rest)).1,
        (leadingLabels (pieces ':' rest)).2) := by
  induction labels with
  | nil => rfl
  | cons l labels ih =>
    rw [List.forall_mem_cons] at h
    have htext : labelText (l :: labels) ++ rest = l ++ ':' :: (labelText labels ++ rest) := by
      simp [labelText]
    rw [htext, pieces_append_cons (not_mem_of_isName_strip h.1),
      leadingLabels_cons (pieces_ne_nil _ _), if_pos h.1, ih h.2]
    rfl

/-- A text that does not start with a label is a statement. -/
theorem leadingLabels_of_noLabel (h : NoLabel cs) :
    leadingLabels (pieces ':' cs) = ([], strip cs) := by
  have hjoined := joined_pieces ':' cs
  obtain ⟨p, ps, hp⟩ := List.exists_cons_of_ne_nil (pieces_ne_nil ':' cs)
  rw [hp] at hjoined ⊢
  cases ps with
  | nil => exact congrArg (Prod.mk [] ∘ strip) hjoined
  | cons q qs =>
    rw [leadingLabels_cons (List.cons_ne_nil q qs), hjoined, if_neg]
    simpa using h p (joined ':' (q :: qs)) hjoined.symm

/-- Every text is labels and a statement. -/
theorem exists_labels (text : List Char) :
    ∃ labels statement, text = labelText labels ++ statement ∧
      (∀ l ∈ labels, isName (strip l) = true) ∧ NoLabel statement := by
  generalize hps : pieces ':' text = ps
  induction ps generalizing text with
  | nil => exact absurd hps (pieces_ne_nil ':' text)
  | cons p ps ih =>
    have hjoined := joined_pieces ':' text
    have hp : ':' ∉ p := not_mem_of_mem_pieces (hps ▸ List.mem_cons_self)
    rw [hps] at hjoined
    by_cases hlabel : ps ≠ [] ∧ isName (strip p) = true
    · obtain ⟨hne, hname⟩ := hlabel
      have hcut : pieces ':' (joined ':' ps) = ps :=
        pieces_joined hne fun q hq => not_mem_of_mem_pieces (hps ▸ List.mem_cons_of_mem p hq)
      obtain ⟨labels, statement, htext, hlabels, hstatement⟩ := ih (joined ':' ps) hcut
      refine ⟨p :: labels, statement, ?_, List.forall_mem_cons.mpr ⟨hname, hlabels⟩, hstatement⟩
      rw [← hjoined, joined_cons_of_ne_nil ':' p hne, htext]
      simp [labelText]
    · refine ⟨[], text, rfl, List.forall_mem_nil _, fun p' q htext => ?_⟩
      refine Bool.eq_false_iff.mpr fun hname => hlabel ?_
      have hfirst := pieces_append_cons (not_mem_of_isName_strip hname) q
      rw [← htext, hps] at hfirst
      obtain ⟨rfl, rfl⟩ := List.cons.inj hfirst
      exact ⟨pieces_ne_nil ':' q, hname⟩

/-! ### Lines -/

/-- What ends a line: a comment, or nothing. -/
def IsComment (comment : List Char) : Prop := ∀ c ∈ comment.head?, c = ';'

/-- What is read in a line, from its parts. -/
theorem readLine_written (hlabels : ∀ l ∈ labels, isName (strip l) = true) (hcs : NoLabel cs)
    (hcode : ';' ∉ labelText labels ++ cs) (hcomment : IsComment comment) :
    readLine (labelText labels ++ cs ++ comment) = do
      let s? ← Statement.parse (strip cs)
      return labels.map (.label <| strip ·) ++ s?.toList.map .statement := by
  have hwithout : withoutComment (labelText labels ++ cs ++ comment) = labelText labels ++ cs := by
    rw [withoutComment, List.takeWhile_append_of_pos fun c hc => by
      simpa using fun h : c = ';' => hcode (h ▸ hc)]
    cases comment with
    | nil => simp
    | cons c rest => simp [hcomment c rfl]
  rw [readLine, hwithout, leadingLabels_labelText hlabels, leadingLabels_of_noLabel hcs]
  simp only [List.append_nil, List.map_map]
  rfl

/-! ### Statements -/

/-- A statement as it is written: blanks, the operation, a blank, and the operands with the blanks
around them. -/
def statementText (before operation : List Char) (blank : Char) (operands : List (List Char)) :
    List Char :=
  before ++ operation ++ blank :: joined ',' operands

/-- An operation as it is written. -/
structure IsOperation (before operation : List Char) (blank : Char) : Prop where
  before_blank : ∀ c ∈ before, isBlank c = true
  ne_nil : operation ≠ []
  whole : ∀ c ∈ operation, isBlank c = false
  blank : isBlank blank = true

theorem operandsOf_eq {text : List Char} {c : Char} (hc : c ∈ text) (h : isBlank c = false) :
    operandsOf text = (pieces ',' text).map strip := by
  have htext : text = text.takeWhile isBlank ++ stripLeft text ++ [] := by
    rw [List.append_nil, stripLeft, List.takeWhile_append_dropWhile]
  have hleft : (pieces ',' text).map strip = (pieces ',' (stripLeft text)).map strip := by
    nth_rewrite 1 [htext]
    exact map_strip_pieces (by decide) (fun _ hc => List.mem_takeWhile_imp hc)
      (List.forall_mem_nil _) _
  have hne : stripLeft text ≠ [] := by
    intro hnil
    rw [hnil, List.append_nil, List.append_nil] at htext
    rw [htext] at hc
    rw [List.mem_takeWhile_imp hc] at h
    cases h
  rw [hleft, operandsOf]
  split
  · next hnil => exact absurd hnil hne
  · rfl

/-- Blanks around the operands do not count. -/
theorem operandsOf_cons {rest : List Char} {c : Char} (hblank : isBlank blank = true)
    (hcs : ∀ c ∈ cs, isBlank c = true) (hc : c ∈ blank :: rest) (h : isBlank c = false) :
    operandsOf (blank :: rest) = (pieces ',' (rest ++ cs)).map strip := by
  have hfirst : (pieces ',' ([blank] ++ rest ++ [])).map strip = (pieces ',' rest).map strip :=
    map_strip_pieces (by decide) (by simpa using hblank) (List.forall_mem_nil _) rest
  have hlast : (pieces ',' ([] ++ rest ++ cs)).map strip = (pieces ',' rest).map strip :=
    map_strip_pieces (by decide) (List.forall_mem_nil _) hcs rest
  rw [List.append_nil, List.singleton_append] at hfirst
  rw [List.nil_append] at hlast
  rw [operandsOf_eq hc h, hfirst, hlast]

theorem exists_of_operandsOf_ne_nil {text : List Char} (h : operandsOf text ≠ []) :
    ∃ c ∈ text, isBlank c = false := by
  by_contra hnone
  have hblank : ∀ c ∈ text, isBlank c = true := fun c hc =>
    Bool.eq_true_of_not_eq_false fun hf => hnone ⟨c, hc, hf⟩
  refine h ?_
  rw [operandsOf, stripLeft_of_blank hblank]

/-- What is read in a statement, from its parts. -/
theorem parse_written (hop : IsOperation before operation blank) (hne : operands ≠ [])
    (hcomma : ∀ o ∈ operands, ',' ∉ o) {c : Char} (hc : c ∈ joined ',' operands)
    (hsolid : isBlank c = false) :
    Statement.parse (strip (statementText before operation blank operands)) =
      if (operands.map strip).any List.isEmpty then
        .error (.emptyOperand
          (String.ofList (strip (statementText before operation blank operands))))
      else .ok (some ⟨upper operation, operands.map strip⟩) := by
  obtain ⟨solid, bs, hends, hbs, hjoined⟩ := exists_endsSolid hc hsolid
  obtain ⟨o, os, rfl⟩ := List.exists_cons_of_ne_nil hop.ne_nil
  have hnot : ∀ c ∈ o :: os, (!isBlank c) = true := fun c hc => by rw [hop.whole c hc]; rfl
  have hstrip : strip (statementText before (o :: os) blank operands) =
      o :: os ++ blank :: solid := by
    rw [statementText, hjoined, List.append_assoc, strip_append_left hop.before_blank,
      ← List.cons_append, ← List.append_assoc, strip_append_right hbs]
    exact ((hends.append [blank]).append (o :: os)).strip_cons (hop.whole o List.mem_cons_self)
  have htake : (o :: os ++ blank :: solid).takeWhile (!isBlank ·) = o :: os := by
    rw [List.takeWhile_append_of_pos hnot, List.takeWhile_cons_of_neg (by simp [hop.blank]),
      List.append_nil]
  have hdrop : (o :: os ++ blank :: solid).dropWhile (!isBlank ·) = blank :: solid := by
    rw [List.dropWhile_append_of_pos hnot, List.dropWhile_cons_of_neg (by simp [hop.blank])]
  have hoperands : operandsOf (blank :: solid) = operands.map strip := by
    obtain ⟨init, last, hlast, hl⟩ := hends
    have hmem : last ∈ blank :: solid := by simp [hlast]
    rw [operandsOf_cons hop.blank hbs hmem hl, ← hjoined, pieces_joined hne hcomma]
  rw [hstrip, Statement.parse_of_ne_nil (by simp), htake, hdrop, hoperands]

/-- A statement that is read is written in this way. -/
theorem exists_statementText {text : List Char} {s : Statement}
    (h : Statement.parse (strip text) = .ok (some s)) (hne : s.operands ≠ []) :
    ∃ before operation blank written, IsOperation before operation blank ∧
      text = statementText before operation blank written ∧ upper operation = s.operation ∧
      written.map strip = s.operands ∧ ∀ o ∈ written, ',' ∉ o := by
  obtain ⟨before, behind, hbefore, hbehind, htext⟩ := exists_strip text
  obtain ⟨c, cs, hcs⟩ : ∃ c cs, strip text = c :: cs := by
    refine List.exists_cons_of_ne_nil fun hnil => ?_
    rw [hnil] at h
    cases h
  have hc : isBlank c = false := isBlank_of_strip hcs
  rw [Statement.parse_of_ne_nil (by simp [hcs])] at h
  split at h
  · cases h
  · obtain rfl := Option.some.inj (Except.ok.inj h)
    generalize htail : (strip text).dropWhile (!isBlank ·) = tail at hne ⊢
    have hparts : (strip text).takeWhile (!isBlank ·) ++ tail = strip text := by
      rw [← htail, List.takeWhile_append_dropWhile]
    obtain ⟨d, hd, hsolid⟩ := exists_of_operandsOf_ne_nil hne
    obtain ⟨blank, rest, rfl⟩ := List.exists_cons_of_ne_nil (List.ne_nil_of_mem hd)
    have hblank : isBlank blank = true := by
      have hhead := List.head?_dropWhile_not (!isBlank ·) (strip text)
      rw [htail] at hhead
      simpa using hhead
    refine ⟨before, (strip text).takeWhile (!isBlank ·), blank, pieces ',' (rest ++ behind), ?_, ?_,
      rfl, ?_, fun o ho => not_mem_of_mem_pieces ho⟩
    · refine ⟨hbefore, ?_, fun e he => ?_, hblank⟩
      · rw [hcs, List.takeWhile_cons_of_pos (by simp [hc])]
        exact List.cons_ne_nil _ _
      · simpa using List.mem_takeWhile_imp he
    · rw [statementText, joined_pieces]
      nth_rewrite 1 [htext, ← hparts]
      simp
    · exact (operandsOf_cons hblank hbehind hd hsolid).symm

/-! ### Lines with operands -/

/-- The parts of a line whose statement has operands, as they are written. -/
structure WrittenLine where
  labels : List (List Char)
  before : List Char
  operation : List Char
  /-- The character behind the operation. -/
  blank : Char
  operands : List (List Char)
  comment : List Char
  names : ∀ l ∈ labels, isName (strip l) = true
  isOperation : IsOperation before operation blank
  commas : ∀ o ∈ operands, ',' ∉ o
  isComment : IsComment comment
  /-- The labels end in front of the operation. -/
  noLabel : NoLabel (statementText before operation blank operands)
  /-- The comment starts behind the operands. -/
  code : ';' ∉ labelText labels ++ statementText before operation blank operands

namespace WrittenLine

/-- The statement of a line. -/
def statement (l : WrittenLine) : List Char := statementText l.before l.operation l.blank l.operands

/-- The line. -/
def text (l : WrittenLine) : List Char := labelText l.labels ++ l.statement ++ l.comment

theorem readLine_text (l : WrittenLine) {c : Char} (hc : c ∈ joined ',' l.operands)
    (hsolid : isBlank c = false) :
    readLine l.text =
      if (l.operands.map strip).any List.isEmpty then
        .error (.emptyOperand (String.ofList (strip l.statement)))
      else .ok (l.labels.map (.label <| strip ·) ++
        [.statement ⟨upper l.operation, l.operands.map strip⟩]) := by
  have hne : l.operands ≠ [] := by
    intro hnil
    rw [hnil] at hc
    cases hc
  rw [text, statement, readLine_written l.names l.noLabel l.code l.isComment,
    parse_written l.isOperation hne l.commas hc hsolid]
  split <;> rfl

end WrittenLine

theorem exists_comment (line : List Char) :
    ∃ comment, line = withoutComment line ++ comment ∧ ';' ∉ withoutComment line ∧
      IsComment comment := by
  refine ⟨line.dropWhile (· ≠ ';'), List.takeWhile_append_dropWhile.symm, fun hm => ?_,
    fun c hc => ?_⟩
  · simpa using List.mem_takeWhile_imp hm
  · have hhead := List.head?_dropWhile_not (· ≠ ';') line
    rw [Option.mem_def.mp hc] at hhead
    simpa using hhead

/-- A line that is read as a statement with operands is written in this way. -/
theorem exists_writtenLine {line : List Char} {is : List Item} {s : Statement}
    (h : readLine line = .ok is) (hs : .statement s ∈ is) (hne : s.operands ≠ []) :
    ∃ l : WrittenLine, l.text = line ∧ upper l.operation = s.operation ∧
      l.operands.map strip = s.operands := by
  obtain ⟨comment, hline, hcode, hcomment⟩ := exists_comment line
  obtain ⟨labels, statement, htext, hlabels, hstatement⟩ := exists_labels (withoutComment line)
  rw [htext] at hline hcode
  rw [hline, readLine_written hlabels hstatement hcode hcomment] at h
  obtain ⟨s?, hparse, his⟩ := bind_eq_ok_iff.mp h
  obtain rfl := pure_eq_ok_iff.mp his
  obtain rfl : s? = some s := by
    rcases List.mem_append.mp hs with hs | hs
    · obtain ⟨l, -, hl⟩ := List.mem_map.mp hs
      cases hl
    · obtain ⟨s', hs', heq⟩ := List.mem_map.mp hs
      obtain rfl := Item.statement.inj heq
      exact Option.mem_toList.mp hs'
  obtain ⟨before, operation, blank, operands, hop, rfl, hupper, hoperands, hcommas⟩ :=
    exists_statementText hparse hne
  exact ⟨⟨labels, before, operation, blank, operands, comment, hlabels, hop, hcommas, hcomment,
    hstatement, hcode⟩, hline.symm, hupper, hoperands⟩

end Assembly

end Chip8
