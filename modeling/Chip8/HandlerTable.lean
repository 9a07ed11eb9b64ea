import Chip8.Instruction

/-!
# Tables of handlers

A handler table says for each instruction what carries it out. It is filled once, entry by entry,
and then frozen. No entry is ever replaced, so which handler an instruction has is settled by the
first registration.

What a handler is does not matter here.
-/

namespace Chip8

/-- Handlers in the order of their registration. -/
structure HandlerTable (H : Type) where
  entries : List (Instruction × H)
  /-- Whether further registrations are refused. -/
  frozen : Bool

namespace HandlerTable

/-- A reason to refuse a registration, or a table. -/
inductive Refusal where
  | frozen
  /-- The handler is for words that are no instruction. -/
  | notInstruction
  | alreadyRegistered (i : Instruction)
  /-- A table is to be complete, and these instructions have no handler. -/
  | incomplete (missing : List Instruction)
  deriving DecidableEq, Repr

/-- A refusal in words. -/
def Refusal.message : Refusal → String
  | frozen => "Cannot register handlers: registry is frozen"
  | notInstruction => "UNKNOWN has no handler"
  | alreadyRegistered i => "Handler already registered: " ++ i.pattern
  | incomplete missing => "No handler for: " ++ ", ".intercalate (missing.map (·.pattern))

variable {H : Type}

/-- The table without entries. -/
def empty : HandlerTable H := ⟨[], false⟩

/-- The handler of an instruction. -/
def handler? (t : HandlerTable H) (i : Instruction) : Option H :=
  t.entries.lookup i

/-- The handler for a word. Words that are no instruction have none. -/
def handlerOf? (t : HandlerTable H) (w : Word) : Option H :=
  w.decode.bind t.handler?

/-- Changes of a table that may be refused. -/
abbrev Change (H : Type) := EStateM Refusal (HandlerTable H)

/-- Adds a handler at the end. A refusal changes nothing. -/
def register (i : Option Instruction) (h : H) : Change H Unit := fun t =>
  if t.frozen then .error .frozen t
  else
    match i with
    | none => .error .notInstruction t
    | some i =>
      if (t.handler? i).isSome then .error (.alreadyRegistered i) t
      else .ok () { t with entries := t.entries ++ [(i, h)] }

/-- Adds handlers one after another. The first refusal ends it, and what was added before it
stays. -/
def registerAll : List (Instruction × H) → Change H Unit
  | [] => pure ()
  | (i, h) :: rest => do
    register (some i) h
    registerAll rest

/-- Refuses further registrations. -/
def freeze (t : HandlerTable H) : HandlerTable H := { t with frozen := true }

/-- The instructions without a handler, in the order of their patterns. -/
def missing (t : HandlerTable H) : List Instruction :=
  Instruction.all.filter fun i => (t.handler? i).isNone

/-- Refuses a table that is not complete. -/
def checkComplete (t : HandlerTable H) : Except Refusal Unit :=
  match t.missing with
  | [] => .ok ()
  | is => .error (.incomplete is)

/-- The patterns of the instructions that have a handler, sorted. -/
def patterns (t : HandlerTable H) : List String :=
  (t.entries.map (·.1.pattern)).mergeSort

/-! ## Registration -/

theorem handler?_eq_none_iff (t : HandlerTable H) (i : Instruction) :
    t.handler? i = none ↔ i ∉ t.entries.map (·.1) := by
  simp only [handler?, List.lookup_eq_none_iff, List.mem_map, not_exists, not_and]
  constructor
  · intro h p hp e
    simpa [e] using h p hp
  · intro h p hp
    have := h p hp
    simp [bne_iff_ne, Ne.symm this]

theorem register_eq_ok (t : HandlerTable H) (i : Instruction) (h : H) (hf : t.frozen = false)
    (hi : i ∉ t.entries.map (·.1)) :
    register (some i) h t = .ok () { t with entries := t.entries ++ [(i, h)] } := by
  have : t.handler? i = none := (t.handler?_eq_none_iff i).2 hi
  simp [register, hf, this]

/-- Handlers of different instructions that a table does not have yet are all added. -/
theorem registerAll_eq_ok {hs : List (Instruction × H)} {t : HandlerTable H}
    (hf : t.frozen = false) (hn : ((t.entries ++ hs).map (·.1)).Nodup) :
    registerAll hs t = .ok () { t with entries := t.entries ++ hs } := by
  induction hs generalizing t with
  | nil => simp [registerAll, pure, EStateM.pure]
  | cons e hs ih =>
    obtain ⟨i, h⟩ := e
    have hi : i ∉ t.entries.map (·.1) := by
      intro hm
      simp only [List.map_append, List.map_cons, List.nodup_append] at hn
      exact hn.2.2 _ hm _ (by simp) rfl
    have hn' : (((t.entries ++ [(i, h)]) ++ hs).map (·.1)).Nodup := by
      simpa using hn
    have := ih (t := { t with entries := t.entries ++ [(i, h)] }) hf hn'
    simp only [registerAll, bind, EStateM.bind, register_eq_ok t i h hf hi, this]
    simp

end HandlerTable

end Chip8
