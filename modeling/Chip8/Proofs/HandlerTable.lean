import Chip8.HandlerTable
import Mathlib.Data.List.Induction

/-!
# Filling a table of handlers

A table can be called in any order while it is filled: to register one handler, to register a list
of them, to freeze, to check that it is complete. A call that is refused does not end the series.

Two things decide what becomes of it. A call puts entries only at the end of the table, and an
entry is accepted only for an instruction that has none. So the first handler that is accepted for
an instruction is also the last, and what a table answers is what was accepted on the way.

## Main definitions

* `Call`, `filled` — a call, and the empty table after a series of calls
* `Call.Accepts`, `Registered` — a handler is accepted by a call, and somewhere in a series
* `Objection` — why a registration is refused after a series of calls

## Main results

* `exists_next` — what one call does to a table
* `frozen_filled`, `handler?_filled` — a table answers by its history
* `Registered.unique` — no instruction gets a second handler
* `register_filled_eq_error_iff`, `register_filled_eq_ok_iff` — when a registration is refused, and
  what it does if it is not
* `registerAll_filled` — a list of registrations ends at the first refusal
* `checkComplete_filled` — when a table is not complete, and what a check says of it
-/

namespace Chip8

namespace HandlerTable

variable {H : Type} {t t' : HandlerTable H} {key : Option Instruction} {i : Instruction} {h : H}
  {r : Refusal}

/-! ### Registrations -/

/-- A table with more entries at its end. -/
def adding (t : HandlerTable H) (es : List (Instruction × H)) : HandlerTable H :=
  { t with entries := t.entries ++ es }

@[simp] theorem frozen_adding (t : HandlerTable H) (es : List (Instruction × H)) :
    (t.adding es).frozen = t.frozen := rfl

@[simp] theorem adding_nil (t : HandlerTable H) : t.adding [] = t := by
  simp [adding]

@[simp] theorem adding_adding (t : HandlerTable H) (as bs : List (Instruction × H)) :
    (t.adding as).adding bs = t.adding (as ++ bs) := by
  simp [adding]

theorem handler?_adding (t : HandlerTable H) (es : List (Instruction × H)) (i : Instruction) :
    (t.adding es).handler? i = (t.handler? i).or (es.lookup i) :=
  List.lookup_append

/-- A handler is not replaced by entries that come later. -/
theorem handler?_adding_of_some (hi : t.handler? i = some h) (es : List (Instruction × H)) :
    (t.adding es).handler? i = some h := by
  rw [handler?_adding, hi, Option.some_or]

/-- A registration is accepted if the table is not frozen and the instruction has no handler. -/
theorem register_eq_ok_iff : register key h t = .ok () t' ↔
    t.frozen = false ∧ ∃ i, key = some i ∧ t.handler? i = none ∧ t' = t.adding [(i, h)] := by
  cases hf : t.frozen with
  | true => simp [register, hf]
  | false =>
    cases key with
    | none => simp [register, hf]
    | some i =>
      cases hi : t.handler? i with
      | some g => simp [register, hf, hi]
      | none => simp [register, hf, hi, adding, eq_comm]

/-- The reasons to refuse a registration, in the order they are tried. -/
theorem register_eq_error_iff : register key h t = .error r t' ↔
    t' = t ∧ (t.frozen = true ∧ r = .frozen ∨
      t.frozen = false ∧ key = none ∧ r = .notInstruction ∨
      ∃ i g, t.frozen = false ∧ key = some i ∧ t.handler? i = some g ∧
        r = .alreadyRegistered i) := by
  cases hf : t.frozen with
  | true => simp [register, hf, eq_comm, and_comm]
  | false =>
    cases key with
    | none => simp [register, hf, eq_comm, and_comm]
    | some i =>
      cases hi : t.handler? i with
      | some g => simp [register, hf, hi, eq_comm, and_comm]
      | none => simp [register, hf, hi]

/-! ### Lists of registrations -/

/-- The second half of a list is registered in the table that the first half leaves. -/
theorem registerAll_append (as bs : List (Instruction × H)) (t : HandlerTable H) :
    registerAll (as ++ bs) t =
      match registerAll as t with
      | .ok _ t' => registerAll bs t'
      | .error r t' => .error r t' := by
  induction as generalizing t with
  | nil => rfl
  | cons e as ih =>
    simp only [List.cons_append, registerAll, bind, EStateM.bind]
    cases register (some e.1) e.2 t with
    | ok _ t' => exact ih t'
    | error r t' => rfl

/-- A list is registered as a whole, or up to the first entry that is refused. -/
theorem registerAll_cases (hs : List (Instruction × H)) (t : HandlerTable H) :
    registerAll hs t = .ok () (t.adding hs) ∨
      ∃ as i h bs r, hs = as ++ (i, h) :: bs ∧ registerAll as t = .ok () (t.adding as) ∧
        register (some i) h (t.adding as) = .error r (t.adding as) ∧
        registerAll hs t = .error r (t.adding as) := by
  induction hs generalizing t with
  | nil => exact .inl (by rw [adding_nil]; rfl)
  | cons e hs ih =>
    obtain ⟨i, h⟩ := e
    cases hr : register (some i) h t with
    | error r t' =>
      obtain ⟨rfl, -⟩ := register_eq_error_iff.mp hr
      refine .inr ⟨[], i, h, hs, r, rfl, by rw [adding_nil]; rfl, by rw [adding_nil, hr], ?_⟩
      simp only [registerAll, bind, EStateM.bind, hr, adding_nil]
    | ok _ t' =>
      obtain ⟨-, j, hj, -, rfl⟩ := register_eq_ok_iff.mp hr
      obtain rfl := Option.some.inj hj
      have hnext (l : List (Instruction × H)) :
          registerAll ((i, h) :: l) t = registerAll l (t.adding [(i, h)]) := by
        simp only [registerAll, bind, EStateM.bind, hr]
      rcases ih (t.adding [(i, h)]) with hall | ⟨as, j, g, bs, r, rfl, has, hj, hall⟩
      · exact .inl (by rw [hnext, hall, adding_adding, List.singleton_append])
      · simp only [adding_adding, List.singleton_append] at has hj hall
        exact .inr ⟨(i, h) :: as, j, g, bs, r, rfl, (hnext as).trans has, hj, (hnext _).trans hall⟩

theorem registerAll_eq_ok_adding {hs : List (Instruction × H)}
    (hr : registerAll hs t = .ok () t') : t' = t.adding hs := by
  rcases registerAll_cases hs t with hall | ⟨as, j, g, bs, r, -, -, -, hall⟩
  · exact (EStateM.Result.ok.inj (hr.symm.trans hall)).2
  · cases hr.symm.trans hall

/-- Only the empty list is registered in a frozen table. -/
theorem eq_nil_of_frozen {hs : List (Instruction × H)} (hr : registerAll hs t = .ok () t')
    (hf : t.frozen = true) : hs = [] := by
  cases hs with
  | nil => rfl
  | cons e hs => simp [registerAll, bind, EStateM.bind, register, hf] at hr

/-! ### Calls -/

/-- What can be asked of a table while it is filled. -/
inductive Call (H : Type) where
  | register (key : Option Instruction) (h : H)
  | registerAll (hs : List (Instruction × H))
  | freeze
  | checkComplete

/-- What a call does to a table. -/
def Call.change : Call H → Change H Unit
  | .register key h => HandlerTable.register key h
  | .registerAll hs => HandlerTable.registerAll hs
  | .freeze => modify HandlerTable.freeze
  | .checkComplete => fun t =>
    match t.checkComplete with
    | .ok () => .ok () t
    | .error r => .error r t

/-- The table a call leaves, whether it is refused or not. -/
def Call.next (c : Call H) (t : HandlerTable H) : HandlerTable H :=
  match c.change t with
  | .ok _ t' => t'
  | .error _ t' => t'

/-- A handler is accepted for an instruction: alone, or within a list, once everything before it in
the list has been accepted. -/
inductive Call.Accepts : Call H → HandlerTable H → Instruction → H → Prop
  | register {i : Instruction} {h : H} {t t' : HandlerTable H}
      (hr : HandlerTable.register (some i) h t = .ok () t') : Accepts (.register (some i) h) t i h
  | registerAll {i : Instruction} {h : H} {t u u' : HandlerTable H} {as bs : List (Instruction × H)}
      (has : HandlerTable.registerAll as t = .ok () u)
      (hr : HandlerTable.register (some i) h u = .ok () u') :
      Accepts (.registerAll (as ++ (i, h) :: bs)) t i h

@[simp] theorem Call.next_freeze (t : HandlerTable H) : Call.freeze.next t = t.freeze := rfl

@[simp] theorem Call.next_checkComplete (t : HandlerTable H) : Call.checkComplete.next t = t := by
  simp only [next, change]
  cases t.checkComplete <;> rfl

theorem Call.next_of_ok {c : Call H} (hc : c.change t = .ok () t') : c.next t = t' := by
  rw [next, hc]

theorem Call.next_of_error {c : Call H} (hc : c.change t = .error r t') : c.next t = t' := by
  rw [next, hc]

/-- Entries of a list that is registered are accepted one by one. -/
theorem accepts_of_lookup {as bs : List (Instruction × H)} (hall : registerAll as t = .ok () t')
    (hi : as.lookup i = some h) : (Call.registerAll (as ++ bs)).Accepts t i h := by
  obtain ⟨l, l', rfl, -⟩ := List.lookup_eq_some_iff.mp hi
  rw [registerAll_append] at hall
  cases hl : registerAll l t with
  | error r u => simp [hl] at hall
  | ok _ u =>
    cases hr : register (some i) h u with
    | error r u' => simp [hl, registerAll, bind, EStateM.bind, hr] at hall
    | ok _ u' =>
      rw [List.append_assoc, List.cons_append]
      exact .registerAll hl hr

/-- What one call does: it freezes the table, or it adds entries. To a frozen table it adds none,
and an entry that counts has been accepted. -/
theorem exists_next (c : Call H) (t : HandlerTable H) :
    c = .freeze ∧ c.next t = t.freeze ∨
      ∃ es, c ≠ .freeze ∧ c.next t = t.adding es ∧ (t.frozen = true → es = []) ∧
        ∀ i h, t.handler? i = none → es.lookup i = some h → c.Accepts t i h := by
  cases c with
  | freeze => exact .inl ⟨rfl, rfl⟩
  | checkComplete =>
    exact .inr ⟨[], nofun, by rw [Call.next_checkComplete, adding_nil], fun _ => rfl, nofun⟩
  | register key h =>
    right
    cases hr : register key h t with
    | error r t' =>
      obtain ⟨rfl, -⟩ := register_eq_error_iff.mp hr
      refine ⟨[], nofun, ?_, fun _ => rfl, nofun⟩
      rw [Call.next_of_error (c := .register key h) hr, adding_nil]
    | ok _ t' =>
      obtain ⟨hf, i, rfl, -, rfl⟩ := register_eq_ok_iff.mp hr
      refine ⟨[(i, h)], nofun, Call.next_of_ok (c := .register (some i) h) hr,
        fun hf' => by simp [hf] at hf', ?_⟩
      intro j g _ hj
      have hmem : (j, g) = (i, h) := by
        obtain ⟨l, l', hl, -⟩ := List.lookup_eq_some_iff.mp hj
        exact List.mem_singleton.mp (hl ▸ List.mem_append_cons_self)
      obtain ⟨rfl, rfl⟩ := Prod.mk.inj hmem
      exact .register hr
  | registerAll hs =>
    right
    rcases registerAll_cases hs t with hall | ⟨as, i, h, bs, r, rfl, has, -, hall⟩
    · refine ⟨hs, nofun, Call.next_of_ok (c := .registerAll hs) hall, eq_nil_of_frozen hall, ?_⟩
      intro j g _ hj
      have haccepts : (Call.registerAll (hs ++ [])).Accepts t j g := accepts_of_lookup hall hj
      rwa [List.append_nil] at haccepts
    · refine ⟨as, nofun, Call.next_of_error (c := .registerAll (as ++ (i, h) :: bs)) hall,
        eq_nil_of_frozen has, ?_⟩
      intro j g _ hj
      exact accepts_of_lookup has hj

/-- What is accepted for an instruction is the first handler it gets. -/
theorem Call.Accepts.fresh {c : Call H} (hc : c.Accepts t i h) : t.handler? i = none := by
  cases hc with
  | register hr =>
    obtain ⟨-, j, hj, hn, -⟩ := register_eq_ok_iff.mp hr
    exact Option.some.inj hj ▸ hn
  | registerAll has hr =>
    obtain ⟨-, j, hj, hn, -⟩ := register_eq_ok_iff.mp hr
    obtain rfl := Option.some.inj hj
    rw [registerAll_eq_ok_adding has, handler?_adding, Option.or_eq_none_iff] at hn
    exact hn.1

/-- What is accepted is in the table afterwards, also if the rest of its list is refused. -/
theorem Call.Accepts.stored {c : Call H} (hc : c.Accepts t i h) :
    (c.next t).handler? i = some h := by
  have hself {u u' : HandlerTable H} (hr : HandlerTable.register (some i) h u = .ok () u') :
      u'.handler? i = some h := by
    obtain ⟨-, j, hj, hn, rfl⟩ := register_eq_ok_iff.mp hr
    obtain rfl := Option.some.inj hj
    rw [handler?_adding, hn, Option.none_or, List.lookup_cons_self]
  cases hc with
  | register hr =>
    rw [Call.next_of_ok (c := .register (some i) h) hr]
    exact hself hr
  | @registerAll _ _ _ u u' as bs has hr =>
    have hrest : HandlerTable.registerAll (as ++ (i, h) :: bs) t =
        HandlerTable.registerAll bs u' := by
      simp only [registerAll_append, has, HandlerTable.registerAll, bind, EStateM.bind, hr]
    rcases registerAll_cases bs u' with hall | ⟨bs', _, _, _, _, -, -, -, hall⟩
    · rw [Call.next_of_ok (c := .registerAll (as ++ (i, h) :: bs)) (hrest.trans hall)]
      exact handler?_adding_of_some (hself hr) bs
    · rw [Call.next_of_error (c := .registerAll (as ++ (i, h) :: bs)) (hrest.trans hall)]
      exact handler?_adding_of_some (hself hr) bs'

/-! ### Series of calls -/

/-- The table after a series of calls. -/
def calling (t : HandlerTable H) (calls : List (Call H)) : HandlerTable H :=
  calls.foldl (fun t c => c.next t) t

/-- The empty table after a series of calls. -/
def filled (calls : List (Call H)) : HandlerTable H := empty.calling calls

variable {calls : List (Call H)}

theorem calling_cons (t : HandlerTable H) (c : Call H) (calls : List (Call H)) :
    t.calling (c :: calls) = (c.next t).calling calls := rfl

theorem filled_append (calls later : List (Call H)) :
    filled (calls ++ later) = (filled calls).calling later :=
  List.foldl_append

theorem filled_concat (calls : List (Call H)) (c : Call H) :
    filled (calls ++ [c]) = c.next (filled calls) :=
  filled_append calls [c]

/-- A handler is kept by all calls. -/
theorem handler?_calling (hi : t.handler? i = some h) (calls : List (Call H)) :
    (t.calling calls).handler? i = some h := by
  induction calls generalizing t with
  | nil => exact hi
  | cons c calls ih =>
    rw [calling_cons]
    refine ih ?_
    rcases exists_next c t with ⟨-, hc⟩ | ⟨es, -, hc, -, -⟩
    · rw [hc]
      exact hi
    · rw [hc]
      exact handler?_adding_of_some hi es

/-- A frozen table is as it is, whatever is asked of it. -/
theorem calling_of_frozen (hf : t.frozen = true) (calls : List (Call H)) :
    t.calling calls = t := by
  induction calls with
  | nil => rfl
  | cons c calls ih =>
    have hc : c.next t = t := by
      rcases exists_next c t with ⟨-, hc⟩ | ⟨es, -, hc, hes, -⟩
      · rw [hc, freeze, ← hf]
      · rw [hc, hes hf, adding_nil]
    rw [calling_cons, hc, ih]

theorem frozen_calling (t : HandlerTable H) (calls : List (Call H)) :
    (t.calling calls).frozen = true ↔ t.frozen = true ∨ .freeze ∈ calls := by
  induction calls generalizing t with
  | nil => simp [calling]
  | cons c calls ih =>
    rw [calling_cons, ih, List.mem_cons]
    rcases exists_next c t with ⟨rfl, hc⟩ | ⟨es, hne, hc, -, -⟩
    · simp [freeze]
    · simp [hc, hne.symm]

/-- The table is frozen if it was asked to be. -/
theorem frozen_filled : (filled calls).frozen = true ↔ .freeze ∈ calls := by
  simp [filled, frozen_calling, empty]

/-- A handler was accepted for an instruction by one of the calls. -/
def Registered (calls : List (Call H)) (i : Instruction) (h : H) : Prop :=
  ∃ before c after, calls = before ++ c :: after ∧ c.Accepts (filled before) i h

/-- A table answers with the handler that was accepted. -/
theorem handler?_filled : (filled calls).handler? i = some h ↔ Registered calls i h := by
  constructor
  · -- from the end: either the last call accepted it, or it was there before
    induction calls using List.reverseRecOn with
    | nil => nofun
    | append_singleton calls c ih =>
      intro hi
      rw [filled_concat] at hi
      have hold (hi : (filled calls).handler? i = some h) : Registered (calls ++ [c]) i h := by
        obtain ⟨before, c', after, rfl, hc⟩ := ih hi
        exact ⟨before, c', after ++ [c], by simp, hc⟩
      rcases exists_next c (filled calls) with ⟨-, hc⟩ | ⟨es, -, hc, -, hes⟩
      · rw [hc] at hi
        exact hold hi
      · rw [hc, handler?_adding, Option.or_eq_some_iff] at hi
        rcases hi with hi | ⟨hn, hi⟩
        · exact hold hi
        · exact ⟨calls, c, [], rfl, hes i h hn hi⟩
  · rintro ⟨before, c, after, rfl, hc⟩
    rw [filled_append]
    exact handler?_calling hc.stored after

/-- No other handler is accepted for an instruction that has one. -/
theorem Registered.unique {g : H} (hi : Registered calls i h) (hi' : Registered calls i g) :
    h = g :=
  Option.some.inj ((handler?_filled.mpr hi).symm.trans (handler?_filled.mpr hi'))

theorem forall_not_registered :
    (∀ h, ¬Registered calls i h) ↔ (filled calls).handler? i = none := by
  simp only [← handler?_filled, Option.eq_none_iff_forall_ne_some, ne_eq]

/-- A call accepts the first handler of an instruction only. -/
theorem Call.Accepts.first {c : Call H} (hc : c.Accepts (filled calls) i h) (g : H) :
    ¬Registered calls i g :=
  forall_not_registered.mpr hc.fresh g

/-- What a call has accepted stays, whatever comes later. -/
theorem Call.Accepts.kept {c : Call H} (hc : c.Accepts (filled calls) i h) (later : List (Call H)) :
    (filled (calls ++ c :: later)).handler? i = some h :=
  handler?_filled.mpr ⟨calls, c, later, rfl, hc⟩

/-! ### What a filled table refuses -/

/-- Why a registration is refused after a series of calls. The reasons are tried in this order. -/
inductive Objection (calls : List (Call H)) : Option Instruction → Refusal → Prop
  | frozen {key : Option Instruction} (hf : .freeze ∈ calls) : Objection calls key .frozen
  | notInstruction (hf : .freeze ∉ calls) : Objection calls none .notInstruction
  | alreadyRegistered {i : Instruction} {g : H} (hf : .freeze ∉ calls) (hi : Registered calls i g) :
      Objection calls (some i) (.alreadyRegistered i)

theorem register_filled_eq_error_iff : register key h (filled calls) = .error r t' ↔
    t' = filled calls ∧ Objection calls key r := by
  rw [register_eq_error_iff, ← Bool.not_eq_true, frozen_filled]
  refine and_congr_right fun _ => ⟨?_, ?_⟩
  · rintro (⟨hf, rfl⟩ | ⟨hf, rfl, rfl⟩ | ⟨i, g, hf, rfl, hi, rfl⟩)
    · exact .frozen hf
    · exact .notInstruction hf
    · exact .alreadyRegistered hf (handler?_filled.mp hi)
  · rintro (hf | hf | ⟨hf, hi⟩)
    · exact .inl ⟨hf, rfl⟩
    · exact .inr (.inl ⟨hf, rfl, rfl⟩)
    · exact .inr (.inr ⟨_, _, hf, rfl, handler?_filled.mpr hi, rfl⟩)

theorem register_filled_eq_ok_iff : register key h (filled calls) = .ok () t' ↔
    (∀ r, ¬Objection calls key r) ∧ ∃ i, key = some i ∧ t' = (filled calls).adding [(i, h)] := by
  constructor
  · intro hr
    obtain ⟨-, i, hkey, -, ht⟩ := register_eq_ok_iff.mp hr
    refine ⟨fun r ho => ?_, i, hkey, ht⟩
    cases hr.symm.trans (register_filled_eq_error_iff.mpr ⟨rfl, ho⟩)
  · rintro ⟨hno, i, rfl, rfl⟩
    cases hr : register (some i) h (filled calls) with
    | error r t => exact absurd (register_filled_eq_error_iff.mp hr).2 (hno r)
    | ok _ t =>
      obtain ⟨-, j, hj, -, rfl⟩ := register_eq_ok_iff.mp hr
      rw [Option.some.inj hj]

/-- The registrations of a list as calls of their own. -/
def registering (hs : List (Instruction × H)) : List (Call H) :=
  hs.map fun e => .register (some e.1) e.2

theorem calling_registering {hs : List (Instruction × H)} (hr : registerAll hs t = .ok () t') :
    t.calling (registering hs) = t' := by
  induction hs generalizing t with
  | nil => exact (EStateM.Result.ok.inj hr).2
  | cons e hs ih =>
    cases he : register (some e.1) e.2 t with
    | error r u => simp [registerAll, bind, EStateM.bind, he] at hr
    | ok _ u =>
      simp only [registerAll, bind, EStateM.bind, he] at hr
      rw [registering, List.map_cons, calling_cons,
        Call.next_of_ok (c := .register (some e.1) e.2) he]
      exact ih hr

/-- A list is registered as a whole, or up to the first entry that is refused after those before it
have been registered. -/
theorem registerAll_filled (calls : List (Call H)) (hs : List (Instruction × H)) :
    registerAll hs (filled calls) = .ok () ((filled calls).adding hs) ∨
      ∃ as i h bs r, hs = as ++ (i, h) :: bs ∧
        filled (calls ++ registering as) = (filled calls).adding as ∧
        Objection (calls ++ registering as) (some i) r ∧
        registerAll hs (filled calls) = .error r ((filled calls).adding as) := by
  refine (registerAll_cases hs (filled calls)).imp_right ?_
  rintro ⟨as, i, h, bs, r, rfl, has, hr, hall⟩
  have hcalls : filled (calls ++ registering as) = (filled calls).adding as := by
    rw [filled_append, calling_registering has]
  rw [← hcalls] at hr
  exact ⟨as, i, h, bs, r, rfl, hcalls, (register_filled_eq_error_iff.mp hr).2, hall⟩

/-- The instructions that no handler was accepted for, in the order of their declaration, are what
a check complains of. -/
theorem checkComplete_filled (calls : List (Call H)) :
    ∃ is : List Instruction, is.Pairwise (·.ctorIdx < ·.ctorIdx) ∧
      (∀ i, i ∈ is ↔ ∀ h, ¬Registered calls i h) ∧
      Call.checkComplete.change (filled calls) =
        if is = [] then .ok () (filled calls) else .error (.incomplete is) (filled calls) := by
  refine ⟨(filled calls).missing, ?_, fun i => ?_, ?_⟩
  · have hall : Instruction.all.Pairwise (·.ctorIdx < ·.ctorIdx) := by decide
    exact hall.sublist List.filter_sublist
  · rw [forall_not_registered, missing, List.mem_filter, Option.isNone_iff_eq_none]
    exact and_iff_right (Instruction.mem_all i)
  · simp only [Call.change, checkComplete]
    cases (filled calls).missing <;> rfl

end HandlerTable

end Chip8
