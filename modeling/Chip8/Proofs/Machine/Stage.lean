import Chip8.Proofs.Machine.Outcome

/-!
# When a cycle fails

A cycle goes through six stages at which it can fail, and `faultAt?` says for each when it does.
Every condition is stated for itself, so it may hold at several stages: the first of them decides,
which is `firstFault?`.

Faults about registers, slots or bytes that are missing belong to no stage: they need a machine
that was tampered with, and `Fault.arises` tells them from the others.

## Main results

* `firstFault?_eq_some_iff` — the first fault, in terms of the stages before it
* `arises_of_faultAt?` — the faults that there are
-/

namespace Chip8

/-- Whether a fault can come out of a cycle of an intact machine. -/
def Fault.arises : Fault → Bool
  | .unknownWord _ _ | .outsideMemory _ | .stackFull _ | .stackEmpty _ | .device _ => true
  | _ => false

namespace Machine

variable {κ β δ ρ : Type}

/-! ### Stages -/

/-- The stages at which a cycle can fail. -/
inductive Stage where
  /-- The word is fetched. -/
  | fetch
  /-- The word is taken for an instruction. -/
  | decode
  /-- The stack is looked at. -/
  | stack
  /-- The bytes at `I` are looked at. -/
  | access
  /-- The screen is presented. -/
  | display
  /-- The tone is sounded. -/
  | sound
  deriving DecidableEq, Repr

/-- The number of bytes at `I` that the instruction works on. -/
def extent? (m : Machine κ β δ ρ) : Option Nat :=
  match m.instruction? with
  | some .decimal => some 3
  | some .store => some (m.cpu.word.x + 1)
  | some .load => some (m.cpu.word.x + 1)
  | some .draw => some m.cpu.word.n
  | _ => none

/-- Why the display refuses the screen that is presented. -/
def displayFailure? [Display δ] (m : Machine κ β δ ρ) : Option DeviceFailure :=
  m.shown?.bind fun s => (Display.present s m.display).failure

/-- Why the tone fails. -/
def soundFailure? [Sounder β] (m : Machine κ β δ ρ) : Option DeviceFailure :=
  if m.soundSet = 1 then (Sounder.beep m.sounder).failure else none

/-- The fault at a stage, if the stages before it are passed. -/
def faultAt? [Sounder β] [Display δ] (m : Machine κ β δ ρ) : Stage → Option Fault
  | .fetch =>
    if 4094 < m.cpu.pc then some (.outsideMemory (max m.cpu.pc memorySize)) else none
  | .decode =>
    match m.instruction? with
    | some _ => none
    | none => some (.unknownWord m.cpu.pc m.cpu.word.value)
  | .stack =>
    match m.instruction? with
    | some .ret => if m.cpu.sp = 0 then some (.stackEmpty m.cpu.pc) else none
    | some .call => if m.cpu.sp = stackDepth then some (.stackFull m.cpu.pc) else none
    | _ => none
  | .access =>
    match m.extent? with
    | some n =>
      if memorySize < m.cpu.index + n then some (.outsideMemory (max m.cpu.index memorySize))
      else none
    | none => none
  | .display => m.displayFailure?.map .device
  | .sound => m.soundFailure?.map .device

/-- The stages in their order. -/
def stages : List Stage := [.fetch, .decode, .stack, .access, .display, .sound]

/-- The first stage at which the cycle fails, and the fault there. -/
def firstFault? [Sounder β] [Display δ] (m : Machine κ β δ ρ) : Option (Stage × Fault) :=
  stages.findSome? fun s => (m.faultAt? s).map (s, ·)

variable [Sounder β] [Display δ] {m : Machine κ β δ ρ} {s : Stage} {f : Fault}

/-! ### Faults of a stage -/

theorem faultAt?_access {n : Nat} (h : m.extent? = some n) :
    m.faultAt? .access =
      if memorySize < m.cpu.index + n then some (.outsideMemory (max m.cpu.index memorySize))
      else none := by
  rw [faultAt?, h]

theorem faultAt?_fetch_eq_none_iff : m.faultAt? .fetch = none ↔ m.cpu.pc ≤ 4094 := by
  simp [faultAt?]

/-- A screen that the display refuses is the screen of the instruction. -/
theorem shown?_of_faultAt? (h : m.faultAt? .display = some f) : ∃ shown, m.shown? = some shown := by
  cases hs : m.shown? with
  | none => simp [faultAt?, displayFailure?, hs] at h
  | some shown => exact ⟨shown, rfl⟩

/-- A tone that fails was due. -/
theorem soundSet_of_faultAt? (h : m.faultAt? .sound = some f) : m.soundSet = 1 := by
  rw [faultAt?, soundFailure?] at h
  split at h
  · assumption
  · contradiction

theorem arises_of_faultAt? (h : m.faultAt? s = some f) : f.arises = true := by
  cases s with
  | fetch =>
    obtain ⟨-, rfl⟩ : _ ∧ _ = f := by simpa [faultAt?] using h
    rfl
  | decode =>
    cases hi : m.instruction? with
    | none =>
      simp only [faultAt?, hi, Option.some.injEq] at h
      rw [← h]
      rfl
    | some i => simp [faultAt?, hi] at h
  | stack =>
    simp only [faultAt?] at h
    split at h
    · obtain ⟨-, rfl⟩ : _ ∧ _ = f := by simpa using h
      rfl
    · obtain ⟨-, rfl⟩ : _ ∧ _ = f := by simpa using h
      rfl
    · contradiction
  | access =>
    simp only [faultAt?] at h
    split at h
    · obtain ⟨-, rfl⟩ : _ ∧ _ = f := by simpa using h
      rfl
    · contradiction
  | display =>
    obtain ⟨reason, -, rfl⟩ : ∃ reason, _ ∧ Fault.device reason = f := by
      simpa [faultAt?] using h
    rfl
  | sound =>
    obtain ⟨reason, -, rfl⟩ : ∃ reason, _ ∧ Fault.device reason = f := by
      simpa [faultAt?] using h
    rfl

/-! ### The first fault -/

/-- The first member of a list for which there is something, and what there is for it. -/
theorem findSome?_pair_eq_some_iff {α ε : Type} [DecidableEq α] {l : List α} {g : α → Option ε}
    {a : α} {e : ε} :
    (l.findSome? fun s => (g s).map (s, ·)) = some (a, e) ↔
      a ∈ l ∧ g a = some e ∧ ∀ s, l.idxOf s < l.idxOf a → g s = none := by
  induction l with
  | nil => simp
  | cons b l ih =>
    have hself : (b :: l).idxOf b = 0 := List.idxOf_cons_self
    have hne : ∀ s, b ≠ s → (b :: l).idxOf s = l.idxOf s + 1 := by
      intro s hs
      rw [List.idxOf_cons, beq_false_of_ne hs, cond_false]
    rw [List.findSome?_cons]
    cases hg : g b with
    | some e' =>
      constructor
      · intro h
        obtain ⟨rfl, rfl⟩ : b = a ∧ e' = e := by simpa using h
        refine ⟨List.mem_cons_self, hg, fun s hs => ?_⟩
        omega
      · rintro ⟨-, ha, hb⟩
        by_cases hba : b = a
        · rw [← hba, hg] at ha
          simpa [hba] using ha
        · have := hb b (by rw [hself, hne a hba]; omega)
          rw [hg] at this
          contradiction
    | none =>
      have hba : g a = some e → b ≠ a := by
        rintro ha rfl
        rw [hg] at ha
        contradiction
      refine ih.trans ⟨?_, ?_⟩
      · rintro ⟨hm, ha, hb⟩
        refine ⟨List.mem_cons_of_mem b hm, ha, fun s hs => ?_⟩
        by_cases hbs : b = s
        · rw [← hbs, hg]
        · rw [hne s hbs, hne a (hba ha)] at hs
          exact hb s (by omega)
      · rintro ⟨hm, ha, hb⟩
        refine ⟨(List.mem_cons.mp hm).resolve_left (hba ha).symm, ha, fun s hs => ?_⟩
        by_cases hbs : b = s
        · rw [← hbs, hg]
        · exact hb s (by rw [hne s hbs, hne a (hba ha)]; omega)

/-- The stages in their order, written out. -/
theorem firstFault?_eq (m : Machine κ β δ ρ) :
    m.firstFault? =
      ((m.faultAt? .fetch).map (Stage.fetch, ·) <|> (m.faultAt? .decode).map (Stage.decode, ·) <|>
        (m.faultAt? .stack).map (Stage.stack, ·) <|> (m.faultAt? .access).map (Stage.access, ·) <|>
        (m.faultAt? .display).map (Stage.display, ·) <|>
        (m.faultAt? .sound).map (Stage.sound, ·)) := by
  rw [firstFault?, stages]
  simp only [List.findSome?]
  cases m.faultAt? .fetch <;> cases m.faultAt? .decode <;> cases m.faultAt? .stack <;>
    cases m.faultAt? .access <;> cases m.faultAt? .display <;> cases m.faultAt? .sound <;> rfl

/-- The first fault is the fault of its stage, and no stage before it has any. -/
theorem firstFault?_eq_some_iff :
    m.firstFault? = some (s, f) ↔
      m.faultAt? s = some f ∧
        ∀ s', stages.idxOf s' < stages.idxOf s → m.faultAt? s' = none := by
  have hs : s ∈ stages := by cases s <;> decide
  rw [firstFault?, findSome?_pair_eq_some_iff]
  exact ⟨fun h => h.2, fun h => ⟨hs, h⟩⟩

theorem firstFault?_eq_none_iff : m.firstFault? = none ↔ ∀ s, m.faultAt? s = none := by
  rw [firstFault?, List.findSome?_eq_none_iff]
  constructor
  · intro h s
    have hs : s ∈ stages := by cases s <;> decide
    simpa using h s hs
  · intro h s _
    simp [h s]

end Machine

end Chip8
