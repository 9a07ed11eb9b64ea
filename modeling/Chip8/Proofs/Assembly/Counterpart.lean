import Chip8.Proofs.Assembly.Append
import Chip8.Proofs.Assembly.Strict

/-!
# Source texts that say the same

Two source texts may be written differently and still say the same. How they are compared is always
the same: line by line they come to items that are counterparts of each other, and from there on the
passes go through both lists in step. What counterparts have to agree in is little: the capitals of
labels, the sizes of statements and their bytes, once the labels are known.

Refusals are compared through what is told of them, `g` for the first text and `h` for the second.
So one text may be further down than the other, or spell its operands in another way, and it is up
to `g` and `h` to say which difference that makes.

## Main definitions

* `itemsFrom` — the items of some lines
* `assembleItems` — the passes
* `Counterpart` — items that say the same
* `ReadAlike` — what texts are read as that say the same

## Main results

* `itemsFrom_cons`, `itemsFrom_append` — the items of lines, taken apart
* `assembleItems_congr`, `assembleChars_congr` — what counterparts are assembled to
-/

namespace Chip8.Assembly

open Text

variable {ρ : Type} {g h : Refusal → ρ} {labels known : Labels} {its its' : List Located}
  {source source' : List Char}

/-! ### Items and passes -/

/-- The items of lines that are counted from a number. -/
def itemsFrom (number : Nat) (lines : List (List Char)) : Except Refusal (List Located) := do
  return (← readLines number lines).flatten

theorem items_eq_itemsFrom (source : List Char) :
    items source = itemsFrom 1 (pieces '\n' source) := rfl

/-- Lines are read one after the other. -/
theorem itemsFrom_append (number : Nat) (lines lines' : List (List Char)) :
    itemsFrom number (lines ++ lines') = do
      let its ← itemsFrom number lines
      let its' ← itemsFrom (number + lines.length) lines'
      return its ++ its' := by
  have happend : readLines number (lines ++ lines') = do
      let is ← readLines number lines
      let is' ← readLines (number + lines.length) lines'
      return is ++ is' := by
    rw [readLines, List.zipIdx_append, List.mapM_append]
    rfl
  rw [itemsFrom, happend, itemsFrom, itemsFrom]
  cases readLines number lines with
  | error r => rfl
  | ok is =>
    cases readLines (number + lines.length) lines' with
    | error r => rfl
    | ok is' => exact congrArg Except.ok List.flatten_append

theorem itemsFrom_singleton (number : Nat) (line : List Char) :
    itemsFrom number [line] = itemsOfLine number line := by
  change (do return (← (do return [← itemsOfLine number line])).flatten) = _
  cases itemsOfLine number line with
  | error r => rfl
  | ok its => exact congrArg Except.ok (List.append_nil its)

theorem itemsFrom_cons (number : Nat) (line : List Char) (lines : List (List Char)) :
    itemsFrom number (line :: lines) = do
      let its ← itemsOfLine number line
      let its' ← itemsFrom (number + 1) lines
      return its ++ its' := by
  rw [← itemsFrom_singleton]
  exact itemsFrom_append number [line] lines

/-- The passes, without the reading of the lines. -/
def assembleItems (its : List Located) : Except Refusal (List UInt8) := do
  let labels ← collectLabels programStart [] its
  let bytes ← encodeItems labels its
  if maxProgramSize < bytes.length then
    .error ⟨lastLine its, .programTooLong bytes.length maxProgramSize⟩
  else return bytes

theorem assembleChars_eq (source : List Char) :
    assembleChars source = items source >>= assembleItems := rfl

/-! ### Counterparts -/

/-- Two items that say the same. What they may be refused for agrees in what is told of it. -/
inductive Counterpart (g h : Refusal → ρ) : Located → Located → Prop where
  | label {m n : Nat} {a b : List Char}
    (last : ∀ size limit, g ⟨m, .programTooLong size limit⟩ = h ⟨n, .programTooLong size limit⟩)
    (capitals : upper a = upper b)
    (again : g ⟨m, .duplicateLabel (String.ofList a)⟩ = h ⟨n, .duplicateLabel (String.ofList b)⟩) :
    Counterpart g h ⟨m, .label a⟩ ⟨n, .label b⟩
  | statement {m n : Nat} {s t : Statement}
    (last : ∀ size limit, g ⟨m, .programTooLong size limit⟩ = h ⟨n, .programTooLong size limit⟩)
    (size : s.size = t.size)
    (bytes : ∀ labels : Labels, labels.Named →
      ((encode labels s).mapError fun p => g ⟨m, p⟩) =
        (encode labels t).mapError fun p => h ⟨n, p⟩) :
    Counterpart g h ⟨m, .statement s⟩ ⟨n, .statement t⟩

theorem Counterpart.last {i j : Located} (hc : Counterpart g h i j) (size limit : Nat) :
    g ⟨i.line, .programTooLong size limit⟩ = h ⟨j.line, .programTooLong size limit⟩ := by
  cases hc with
  | label last => exact last size limit
  | statement last => exact last size limit

theorem Counterpart.encodeItem {i j : Located} (hc : Counterpart g h i j) (hn : labels.Named) :
    (encodeItem labels i).mapError g = (encodeItem labels j).mapError h := by
  cases hc with
  | label => rfl
  | statement _ _ bytes =>
    rw [Assembly.encodeItem, Assembly.encodeItem, mapError_mapError, mapError_mapError]
    exact bytes labels hn

/-- The first pass finds the same labels, or the same label again. -/
theorem collectLabels_congr (hits : List.Forall₂ (Counterpart g h) its its') (here : Nat)
    (known : Labels) :
    (collectLabels here known its).mapError g = (collectLabels here known its').mapError h := by
  induction hits generalizing here known with
  | nil => rfl
  | cons hi _ ih =>
    cases hi with
    | label _ capitals again =>
      rw [collectLabels, collectLabels, capitals]
      split
      · exact congrArg Except.error again
      · exact ih here _
    | statement _ size =>
      rw [collectLabels, collectLabels, size]
      exact ih _ known

/-- The second pass finds the same bytes, or is stopped by the same item. -/
theorem encodeItems_congr (hits : List.Forall₂ (Counterpart g h) its its') (hn : labels.Named) :
    (encodeItems labels its).mapError g = (encodeItems labels its').mapError h := by
  rw [encodeItems, encodeItems, mapError_bind, mapError_bind,
    mapM_congr_of_forall₂ (hits.imp fun i j hc => hc.encodeItem hn)]
  rfl

theorem lastLine_congr (hits : List.Forall₂ (Counterpart g h) its its') (hne : its ≠ [])
    (size limit : Nat) :
    g ⟨lastLine its, .programTooLong size limit⟩ =
      h ⟨lastLine its', .programTooLong size limit⟩ := by
  induction hits with
  | nil => exact absurd rfl hne
  | @cons i j its its' hi hits ih =>
    cases hits with
    | nil => exact hi.last size limit
    | @cons i' j' its its' hi' hits =>
      have hrest := ih (List.cons_ne_nil _ _)
      simpa [lastLine] using hrest

/-- Counterparts are assembled to the same bytes, or refused for the same reason. -/
theorem assembleItems_congr (hits : List.Forall₂ (Counterpart g h) its its')
    (hnames : ∀ line name, ⟨line, .label name⟩ ∈ its → isName name = true) :
    (assembleItems its).mapError g = (assembleItems its').mapError h := by
  have hlabels := collectLabels_congr hits programStart []
  rw [assembleItems, assembleItems, mapError_bind, mapError_bind, ← hlabels]
  cases hl : collectLabels programStart [] its with
  | error r => rfl
  | ok labels =>
    have hn : labels.Named := named_collectLabels hl (fun n a hl => nomatch hl) hnames
    have hbytes := encodeItems_congr hits hn
    change Except.mapError g (_ >>= _) = Except.mapError h (_ >>= _)
    rw [mapError_bind, mapError_bind, ← hbytes]
    cases hb : encodeItems labels its with
    | error r => rfl
    | ok bytes =>
      change Except.mapError g (if _ then _ else _) = Except.mapError h (if _ then _ else _)
      split
      · next hlong =>
        exact congrArg Except.error (lastLine_congr hits (ne_nil_of_too_long hb hlong) _ _)
      · rfl

/-! ### Readings -/

/-- What two texts are read as: items that are counterparts, or refusals of which the same is
told. -/
inductive ReadAlike (g h : Refusal → ρ) :
    Except Refusal (List Located) → Except Refusal (List Located) → Prop where
  | items {its its' : List Located} (hits : List.Forall₂ (Counterpart g h) its its') :
    ReadAlike g h (.ok its) (.ok its')
  | refusal {r r' : Refusal} (hr : g r = h r') : ReadAlike g h (.error r) (.error r')

theorem ReadAlike.append {x x' y y' : Except Refusal (List Located)} (hx : ReadAlike g h x x')
    (hy : ReadAlike g h y y') :
    ReadAlike g h (do return (← x) ++ (← y)) (do return (← x') ++ (← y')) := by
  cases hx with
  | refusal hr => exact .refusal hr
  | items hits =>
    cases hy with
    | refusal hr => exact .refusal hr
    | items hits' => exact .items (List.rel_append hits hits')

/-- Lines that are read alike one by one are read alike together. -/
theorem readAlike_itemsFrom {lines lines' : List (List Char)} {number number' : Nat}
    (hlength : lines.length = lines'.length)
    (hlines : ∀ i line line', lines[i]? = some line → lines'[i]? = some line' →
      ReadAlike g h (itemsOfLine (number + i) line) (itemsOfLine (number' + i) line')) :
    ReadAlike g h (itemsFrom number lines) (itemsFrom number' lines') := by
  induction lines generalizing lines' number number' with
  | nil =>
    obtain rfl := List.length_eq_zero_iff.mp hlength.symm
    exact .items .nil
  | cons line lines ih =>
    obtain _ | ⟨line', lines'⟩ := lines'
    · cases hlength
    · rw [itemsFrom_cons, itemsFrom_cons]
      refine (hlines 0 line line' rfl rfl).append
        (ih (Nat.succ.inj hlength) fun i l l' hl hl' => ?_)
      rw [Nat.add_assoc, Nat.add_assoc, Nat.add_comm 1]
      exact hlines (i + 1) l l' hl hl'

/-- Texts that are read alike are assembled to the same bytes, or refused for the same reason. -/
theorem assembleChars_congr (hread : ReadAlike g h (items source) (items source')) :
    (assembleChars source).mapError g = (assembleChars source').mapError h := by
  rw [assembleChars_eq, assembleChars_eq, mapError_bind, mapError_bind]
  generalize hi : items source = x at hread ⊢
  generalize items source' = x' at hread ⊢
  cases hread with
  | items hits => exact assembleItems_congr hits fun line name hm => isName_of_mem_items hi hm
  | refusal hr => exact congrArg Except.error hr

end Chip8.Assembly
