import Chip8.Proofs.Assembly.Passes

/-!
# Lines

What a line says does not depend on where it stands: `readLine` reads it without its number, and
`itemsOfLine_eq` puts the number back, both to the items and to the problem if there is one. So the
items of a text that follows another are the same items, further down, and all numbers that occur
are numbers of lines.

## Main definitions

* `readLine`, `readLines` — one line, and several
* `Located.down` — an item some lines further down

## Main results

* `itemsOfLine_eq` — a line and its number
* `items_append_eq_ok_iff` — the items of two texts
* `isName_of_mem_items` — labels are names
-/

namespace Chip8.Assembly

open Text

variable {source line : List Char} {lines lines' : List (List Char)} {number : Nat}
  {its : List Located} {per : List (List Located)}

/-! ### One line -/

/-- What a line says. -/
def readLine (line : List Char) : Except Problem (List Item) := do
  let (labels, rest) := leadingLabels (pieces ':' (withoutComment line))
  let s? ← Statement.parse rest
  return labels.map .label ++ s?.toList.map .statement

theorem itemsOfLine_eq (number : Nat) (line : List Char) :
    itemsOfLine number line =
      match readLine line with
      | .ok is => .ok (is.map (⟨number, ·⟩))
      | .error p => .error ⟨number, p⟩ := by
  simp only [itemsOfLine, readLine, bind, Except.bind, pure, Except.pure]
  obtain p | _ | s := Statement.parse (leadingLabels (pieces ':' (withoutComment line))).2
  · rfl
  · simp
  · simp

theorem itemsOfLine_eq_ok_iff :
    itemsOfLine number line = .ok its ↔
      ∃ is, readLine line = .ok is ∧ is.map (⟨number, ·⟩) = its := by
  rw [itemsOfLine_eq]
  cases readLine line <;> simp

theorem itemsOfLine_eq_error_iff {r : Refusal} :
    itemsOfLine number line = .error r ↔ readLine line = .error r.problem ∧ r.line = number := by
  obtain ⟨n, p⟩ := r
  rw [itemsOfLine_eq]
  cases readLine line with
  | ok is => simp
  | error q => simp [and_comm, eq_comm]

theorem leadingLabels_cons {p : List Char} {ps : List (List Char)} (hne : ps ≠ []) :
    leadingLabels (p :: ps) =
      if isName (strip p) then (strip p :: (leadingLabels ps).1, (leadingLabels ps).2)
      else ([], strip (joined ':' (p :: ps))) := by
  obtain ⟨q, qs, rfl⟩ := List.exists_cons_of_ne_nil hne
  rw [leadingLabels]

/-- What stands before the statement are names. -/
theorem isName_of_mem_leadingLabels {ps : List (List Char)} {name : List Char}
    (h : name ∈ (leadingLabels ps).1) : isName name = true := by
  induction ps with
  | nil => cases h
  | cons p ps ih =>
    cases ps with
    | nil => cases h
    | cons q qs =>
      rw [leadingLabels] at h
      split at h
      · next hp =>
        rcases List.mem_cons.mp h with rfl | h
        · exact hp
        · exact ih h
      · cases h

theorem isName_of_mem_readLine {is : List Item} {name : List Char} (h : readLine line = .ok is)
    (hm : .label name ∈ is) : isName name = true := by
  obtain ⟨s?, -, his⟩ := bind_eq_ok_iff.mp h
  obtain rfl := pure_eq_ok_iff.mp his
  rcases List.mem_append.mp hm with hm | hm
  · obtain ⟨l, hl, he⟩ := List.mem_map.mp hm
    obtain rfl := Item.label.inj he
    exact isName_of_mem_leadingLabels hl
  · obtain ⟨s, -, he⟩ := List.mem_map.mp hm
    cases he

/-! ### Several lines -/

/-- The items of lines that are counted from a number, line by line. -/
def readLines (number : Nat) (lines : List (List Char)) : Except Refusal (List (List Located)) :=
  (lines.zipIdx number).mapM fun (line, number) => itemsOfLine number line

theorem items_eq_ok_iff :
    items source = .ok its ↔
      ∃ per, readLines 1 (pieces '\n' source) = .ok per ∧ per.flatten = its := by
  rw [items, bind_eq_ok_iff]
  simp only [pure_eq_ok_iff, readLines]

theorem readLines_cons_eq_ok_iff :
    readLines number (line :: lines) = .ok per ↔
      ∃ i is, itemsOfLine number line = .ok i ∧ readLines (number + 1) lines = .ok is ∧
        i :: is = per := by
  rw [readLines, List.zipIdx_cons, List.mapM_cons]
  simp only [bind_eq_ok_iff, pure_eq_ok_iff, readLines, exists_and_left]

theorem readLines_append_eq_ok_iff :
    readLines number (lines ++ lines') = .ok per ↔
      ∃ is is', readLines number lines = .ok is ∧
        readLines (number + lines.length) lines' = .ok is' ∧ is ++ is' = per := by
  rw [readLines, List.zipIdx_append, List.mapM_append]
  simp only [bind_eq_ok_iff, pure_eq_ok_iff, readLines, exists_and_left]

/-- Each item of some lines is an item of one of them, with its number. -/
theorem exists_line_of_mem (h : readLines number lines = .ok per) {i : Located}
    (hm : i ∈ per.flatten) :
    ∃ line is, readLine line = .ok is ∧ i.item ∈ is ∧ number ≤ i.line ∧
      i.line < number + lines.length := by
  obtain ⟨first, hfirst, hm⟩ := List.mem_flatten.mp hm
  obtain ⟨⟨line, n⟩, hline, hitems⟩ := exists_of_mem_mapM h hfirst
  obtain ⟨is, his, rfl⟩ := itemsOfLine_eq_ok_iff.mp hitems
  obtain ⟨item, hitem, rfl⟩ := List.mem_map.mp hm
  obtain ⟨hlow, hhigh, -⟩ := List.mem_zipIdx hline
  exact ⟨line, is, his, hitem, hlow, hhigh⟩

/-- A line that cannot be read is refused with its number. -/
theorem line_of_readLines_error {r : Refusal} (h : readLines number lines = .error r) :
    number ≤ r.line ∧ r.line < number + lines.length := by
  obtain ⟨⟨line, n⟩, hline, he⟩ := exists_of_mapM_eq_error h
  obtain ⟨-, hn⟩ := itemsOfLine_eq_error_iff.mp he
  obtain ⟨hlow, hhigh, -⟩ := List.mem_zipIdx hline
  exact hn ▸ ⟨hlow, hhigh⟩

theorem isName_of_mem_items {name : List Char} {n : Nat} (h : items source = .ok its)
    (hm : ⟨n, .label name⟩ ∈ its) : isName name = true := by
  obtain ⟨per, hper, rfl⟩ := items_eq_ok_iff.mp h
  obtain ⟨line, is, his, hitem, -⟩ := exists_line_of_mem hper hm
  exact isName_of_mem_readLine his hitem

/-- Whether a number is that of a line of a source text. -/
def IsLineOf (source : List Char) (n : Nat) : Prop :=
  1 ≤ n ∧ n ≤ source.count '\n' + 1

theorem isLineOf_iff {n : Nat} :
    IsLineOf source n ↔ 1 ≤ n ∧ n < 1 + (pieces '\n' source).length := by
  rw [IsLineOf, length_pieces]
  omega

theorem isLineOf_of_mem_items (h : items source = .ok its) {i : Located} (hm : i ∈ its) :
    IsLineOf source i.line := by
  obtain ⟨per, hper, rfl⟩ := items_eq_ok_iff.mp h
  obtain ⟨line, is, -, -, hline⟩ := exists_line_of_mem hper hm
  exact isLineOf_iff.mpr hline

theorem isLineOf_of_items_eq_error {r : Refusal} (h : items source = .error r) :
    IsLineOf source r.line := by
  rcases bind_eq_error_iff.mp h with hlines | ⟨per, -, hflat⟩
  · exact isLineOf_iff.mpr (line_of_readLines_error hlines)
  · cases hflat

/-! ### Two texts -/

/-- An item some lines further down. -/
def Located.down (k : Nat) (i : Located) : Located := ⟨i.line + k, i.item⟩

/-- Everything but the number of the line is the same further down. -/
theorem itemsOfLine_add (k : Nat) :
    itemsOfLine (number + k) line = .ok its ↔
      ∃ its', itemsOfLine number line = .ok its' ∧ its'.map (·.down k) = its := by
  rw [itemsOfLine_eq, itemsOfLine_eq]
  cases readLine line with
  | error p => simp
  | ok is => simp [Located.down, Function.comp_def]

theorem readLines_add (k : Nat) :
    readLines (number + k) lines = .ok per ↔
      ∃ per', readLines number lines = .ok per' ∧ per'.map (·.map (·.down k)) = per := by
  induction lines generalizing number per with
  | nil =>
    rw [readLines, readLines, List.zipIdx_nil, List.zipIdx_nil, List.mapM_nil]
    simp only [pure_eq_ok_iff, exists_eq_left', List.map_nil]
  | cons line lines ih =>
    rw [readLines_cons_eq_ok_iff]
    simp only [readLines_cons_eq_ok_iff, itemsOfLine_add k, Nat.add_right_comm number k 1, ih]
    constructor
    · rintro ⟨_, _, ⟨i, hi, rfl⟩, ⟨is, his, rfl⟩, rfl⟩
      exact ⟨i :: is, ⟨i, is, hi, his, rfl⟩, rfl⟩
    · rintro ⟨_, ⟨i, is, hi, his, rfl⟩, rfl⟩
      exact ⟨_, _, ⟨i, hi, rfl⟩, ⟨is, his, rfl⟩, rfl⟩

/-- The items of a text that follows another are its items, as many lines further down as the other
has. -/
theorem items_append_eq_ok_iff {a b : List Char} :
    items (a ++ '\n' :: b) = .ok its ↔
      ∃ ia ib, items a = .ok ia ∧ items b = .ok ib ∧
        ia ++ ib.map (·.down (pieces '\n' a).length) = its := by
  simp only [items_eq_ok_iff, pieces_append, readLines_append_eq_ok_iff, readLines_add]
  constructor
  · rintro ⟨_, ⟨pa, _, hpa, ⟨pb, hpb, rfl⟩, rfl⟩, rfl⟩
    exact ⟨_, _, ⟨pa, hpa, rfl⟩, ⟨pb, hpb, rfl⟩, by rw [List.flatten_append, List.map_flatten]⟩
  · rintro ⟨_, _, ⟨pa, hpa, rfl⟩, ⟨pb, hpb, rfl⟩, rfl⟩
    exact ⟨_, ⟨pa, _, hpa, ⟨pb, hpb, rfl⟩, rfl⟩, by rw [List.flatten_append, List.map_flatten]⟩

end Chip8.Assembly
