import Mathlib.Data.List.Forall2

/-!
# Steps that may fail

A sequence of steps gives a result exactly if each of them does, and it fails where the first of
them fails. The same for one step that is taken for each member of a list.

These are the facts that turn an equation about a `do` block into equations about its steps. Nothing
here is about the assembler, which is where most of them are needed.

## Main results

* `bind_eq_ok_iff`, `bind_eq_error_iff` — a sequence of two steps
* `exists_of_mem_mapM`, `exists_of_mapM_eq_error` — a step for each member of a list
* `mapError_bind`, `mapM_mapError` — failures in other words
* `mapM_congr_of_forall₂` — steps for the members of two lists that agree one by one
-/

namespace Chip8

variable {ε ε' α β : Type} {e : ε}

/-! ### One step after the other -/

section Bind

variable {x : Except ε α} {a : α} {b : β}

theorem bind_eq_ok_iff {f : α → Except ε β} :
    (x >>= f) = .ok b ↔ ∃ a, x = .ok a ∧ f a = .ok b := by
  cases x <;> simp [bind, Except.bind]

theorem bind_eq_error_iff {f : α → Except ε β} :
    (x >>= f) = .error e ↔ x = .error e ∨ ∃ a, x = .ok a ∧ f a = .error e := by
  cases x <;> simp [bind, Except.bind]

theorem pure_eq_ok_iff {a' : α} : (pure a : Except ε α) = .ok a' ↔ a = a' := by
  simp [pure, Except.pure]

theorem map_eq_ok_iff {f : α → β} : (f <$> x) = .ok b ↔ ∃ a, x = .ok a ∧ f a = b := by
  cases x <;> simp [Functor.map, Except.map]

theorem mapError_eq_ok_iff {g : ε → ε'} : x.mapError g = .ok a ↔ x = .ok a := by
  cases x <;> simp [Except.mapError]

theorem mapError_bind {g : ε → ε'} (x : Except ε α) (f : α → Except ε β) :
    (x >>= f).mapError g = x.mapError g >>= fun a => (f a).mapError g := by
  cases x <;> rfl

theorem mapError_mapError {ε'' : Type} (g : ε → ε') (g' : ε' → ε'') (x : Except ε α) :
    (x.mapError g).mapError g' = x.mapError fun e => g' (g e) := by
  cases x <;> rfl

theorem mapError_id (x : Except ε α) : x.mapError id = x := by
  cases x <;> rfl

end Bind

/-! ### One step for each member of a list -/

section Traversal

variable {f : α → Except ε β} {as : List α} {bs : List β}

/-- The steps of a traversal that has a result. -/
theorem mapM_cons_eq_ok_iff {a : α} :
    (a :: as).mapM f = .ok bs ↔ ∃ b rest, f a = .ok b ∧ as.mapM f = .ok rest ∧ b :: rest = bs := by
  rw [List.mapM_cons]
  simp only [bind_eq_ok_iff, pure_eq_ok_iff, exists_and_left]

theorem length_of_mapM (h : as.mapM f = .ok bs) : bs.length = as.length := by
  induction as generalizing bs with
  | nil =>
    obtain rfl := pure_eq_ok_iff.mp h
    rfl
  | cons a as ih =>
    obtain ⟨b, rest, -, hrest, rfl⟩ := mapM_cons_eq_ok_iff.mp h
    rw [List.length_cons, List.length_cons, ih hrest]

theorem exists_of_mem_mapM {b : β} (h : as.mapM f = .ok bs) (hb : b ∈ bs) :
    ∃ a ∈ as, f a = .ok b := by
  induction as generalizing bs with
  | nil =>
    obtain rfl := pure_eq_ok_iff.mp h
    cases hb
  | cons a as ih =>
    obtain ⟨first, rest, hfirst, hrest, rfl⟩ := mapM_cons_eq_ok_iff.mp h
    rcases List.mem_cons.mp hb with rfl | hb
    · exact ⟨a, List.mem_cons_self, hfirst⟩
    · obtain ⟨a', hmem, ha'⟩ := ih hrest hb
      exact ⟨a', List.mem_cons_of_mem a hmem, ha'⟩

theorem exists_of_mapM_eq_error (h : as.mapM f = .error e) : ∃ a ∈ as, f a = .error e := by
  induction as with
  | nil => cases h
  | cons a as ih =>
    rw [List.mapM_cons] at h
    rcases bind_eq_error_iff.mp h with ha | ⟨b, -, h⟩
    · exact ⟨a, List.mem_cons_self, ha⟩
    rcases bind_eq_error_iff.mp h with has | ⟨bs, -, h⟩
    · obtain ⟨a', hmem, ha'⟩ := ih has
      exact ⟨a', List.mem_cons_of_mem a hmem, ha'⟩
    · cases h

theorem mapM_eq_ok_map {g : α → β} (h : ∀ a ∈ as, f a = .ok (g a)) :
    as.mapM f = .ok (as.map g) := by
  induction as with
  | nil => rfl
  | cons a as ih =>
    rw [List.forall_mem_cons] at h
    rw [List.mapM_cons, h.1, ih h.2]
    rfl

/-- Two lists of steps that end alike one by one, as far as is told of their failures, end alike
together. -/
theorem mapM_congr_of_forall₂ {α' ρ : Type} {f' : α' → Except ε' β} {as' : List α'} {g : ε → ρ}
    {g' : ε' → ρ}
    (h : List.Forall₂ (fun a a' => (f a).mapError g = (f' a').mapError g') as as') :
    (as.mapM f).mapError g = (as'.mapM f').mapError g' := by
  induction h with
  | nil => rfl
  | cons ha _ ih =>
    rw [List.mapM_cons, List.mapM_cons, mapError_bind, mapError_bind, ha]
    refine congrArg (_ >>= ·) (funext fun b => ?_)
    rw [mapError_bind, mapError_bind, ih]
    rfl

theorem mapM_mapError {g : ε → ε'} (f : α → Except ε β) (as : List α) :
    as.mapM (fun a => (f a).mapError g) = (as.mapM f).mapError g := by
  rw [← mapError_id (as.mapM fun a => (f a).mapError g)]
  exact mapM_congr_of_forall₂ (List.forall₂_same.mpr fun a _ => mapError_id _)

end Traversal

end Chip8
