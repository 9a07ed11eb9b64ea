import Chip8.Machine.Handlers
import Chip8.Proofs.HandlerTable

/-!
# Words run the handler that came first

A machine carries out a word by a table of handlers. Tables are filled by calls that can come in
any order and may be refused, and a machine can be asked to carry out a word in between. Whatever
was called, a word runs the handler that was accepted first for its instruction, and that handler
only. A word for which none was accepted is a fault, and the machine is left as it was.

A table that has passed the check runs every instruction from then on, by the same handlers. The
table of all machines is of this kind.

## Main definitions

* `Machine.Settled` — what is certain about a table after a series of calls

## Main results

* `filled_standard` — the table of all machines is filled like any other
* `handlers_are_settled` — every series of calls leaves such a table
-/

namespace Chip8

namespace Machine

open HandlerTable

variable {κ β δ ρ : Type} {t : HandlerTable (Handler κ β δ ρ)} {w : Word}

theorem dispatch_of {i : Instruction} {h : Handler κ β δ ρ} (hw : w.decode = some i)
    (hi : t.handler? i = some h) : dispatch t w = h w := by
  funext m
  simp only [dispatch, handlerOf?, hw, Option.bind_some, hi]

theorem dispatch_of_none (hw : ∀ i, w.decode = some i → t.handler? i = none)
    (m : Machine κ β δ ρ) : dispatch t w m = .error (.noHandler w.decode) m := by
  have hn : t.handlerOf? w = none := Option.bind_eq_none_iff.mpr hw
  simp only [dispatch, hn]

/-- The table of all machines: the handlers are registered, the table is checked and frozen. It
stays so. -/
theorem filled_standard [KeyInput κ] [Display δ] [ByteSource ρ]
    (later : List (Call (Handler κ β δ ρ))) :
    filled (.registerAll handlers :: .checkComplete :: .freeze :: later) = standardTable := by
  have hall : (Call.registerAll handlers).next empty =
      (⟨handlers, false⟩ : HandlerTable (Handler κ β δ ρ)) :=
    Call.next_of_ok (c := .registerAll handlers) registerAll_handlers
  rw [filled, calling_cons, calling_cons, calling_cons, hall, Call.next_checkComplete,
    Call.next_freeze]
  exact calling_of_frozen rfl later

/-- What is certain about the table that a series of calls leaves. -/
structure Settled (calls : List (Call (Handler κ β δ ρ))) : Prop where
  /-- A registration is refused for a reason that its history gives, and then nothing changes. -/
  refused : ∀ key h r t, register key h (filled calls) = .error r t ↔
    t = filled calls ∧ Objection calls key r
  /-- Without such a reason, the handler is added, and that is all. -/
  accepted : ∀ key h t, register key h (filled calls) = .ok () t ↔
    (∀ r, ¬Objection calls key r) ∧ ∃ i, key = some i ∧ t = (filled calls).adding [(i, h)]
  /-- The table has the handlers that were accepted, and no others. -/
  present : ∀ i h, (filled calls).handler? i = some h ↔ Registered calls i h
  /-- What a call accepts is the first handler of its instruction, and remains it whatever is called
  later. -/
  first : ∀ before c after i h, calls = before ++ c :: after → c.Accepts (filled before) i h →
    (∀ g, ¬Registered before i g) ∧ ∀ later, (filled (before ++ c :: later)).handler? i = some h
  /-- Once it is frozen, the table stays as it is. -/
  frozen : .freeze ∈ calls → ∀ later, filled (calls ++ later) = filled calls
  /-- A list is registered as a whole, or just the part before the first key that is refused. -/
  list : ∀ hs, registerAll hs (filled calls) = .ok () ((filled calls).adding hs) ∨
    ∃ as i h bs r, hs = as ++ (i, h) :: bs ∧
      filled (calls ++ registering as) = (filled calls).adding as ∧
      Objection (calls ++ registering as) (some i) r ∧
      registerAll hs (filled calls) = .error r ((filled calls).adding as)
  /-- A check fails if instructions are missing. It names them as they are declared, and changes
  nothing. -/
  check : ∃ is : List Instruction, is.Pairwise (·.ctorIdx < ·.ctorIdx) ∧
    (∀ i, i ∈ is ↔ ∀ h, ¬Registered calls i h) ∧
    Call.checkComplete.change (filled calls) =
      if is = [] then .ok () (filled calls) else .error (.incomplete is) (filled calls)
  /-- A word runs the handler that was accepted for its instruction. -/
  runs : ∀ w i h, w.decode = some i → Registered calls i h → dispatch (filled calls) w = h w
  /-- Without any, carrying out the word fails, and the machine is left as it was. -/
  fails : ∀ w m, (∀ i, w.decode = some i → ∀ h, ¬Registered calls i h) →
    dispatch (filled calls) w m = .error (.noHandler w.decode) m
  /-- Once a check has passed, every instruction is carried out, by the same handler from then
  on. -/
  exhaustive : Call.checkComplete.change (filled calls) = .ok () (filled calls) →
    ∀ w i, w.decode = some i →
      ∃ h, Registered calls i h ∧ ∀ later, dispatch (filled (calls ++ later)) w = h w

/-- Whatever is called, in whatever order, handlers are settled by the first registration that was
accepted. -/
theorem handlers_are_settled (calls : List (Call (Handler κ β δ ρ))) : Settled calls where
  refused _ _ _ _ := register_filled_eq_error_iff
  accepted _ _ _ := register_filled_eq_ok_iff
  present _ _ := handler?_filled
  first := by
    rintro before c after i h - hc
    exact ⟨hc.first, hc.kept⟩
  frozen hf later := by
    rw [filled_append, calling_of_frozen (frozen_filled.mpr hf)]
  list := registerAll_filled calls
  check := checkComplete_filled calls
  runs _ _ _ hw hi := dispatch_of hw (handler?_filled.mpr hi)
  fails _ m hn := dispatch_of_none (fun i hw => forall_not_registered.mp (hn i hw)) m
  exhaustive := by
    intro hc w i hw
    obtain ⟨is, -, his, hcheck⟩ := checkComplete_filled calls
    have hnil : is = [] := by
      by_contra hne
      rw [if_neg hne, hc] at hcheck
      cases hcheck
    have hi : ∃ h, Registered calls i h := by
      by_contra hno
      exact List.not_mem_nil (hnil ▸ (his i).mpr (not_exists.mp hno))
    obtain ⟨h, hi⟩ := hi
    refine ⟨h, hi, fun later => dispatch_of hw ?_⟩
    rw [filled_append]
    exact handler?_calling (handler?_filled.mpr hi) later

/-- A return that does nothing is registered, so registering all handlers stops behind the first,
and the table is frozen. Then `00EE` does nothing, `00E0` clears the screen, `1NNN` is not carried
out and cannot be registered any more. -/
theorem handlers_are_settled_in_partial_table :
    ∃ calls : List (Call (Handler NoKeys BeepCounter Recorder ByteLoop)),
      (∀ m, dispatch (filled calls) ⟨0x00EE⟩ m = .ok () m) ∧
      dispatch (filled calls) ⟨0x00E0⟩ = onVideo Video.clear ∧
      (∀ m, dispatch (filled calls) ⟨0x1234⟩ m = .error (.noHandler (some .jump)) m) ∧
      (∀ h, register (some .jump) h (filled calls) = .error .frozen (filled calls)) ∧
      Call.checkComplete.change (filled calls) =
        .error (.incomplete (Instruction.all.drop 2)) (filled calls) := by
  obtain ⟨calls, hcalls⟩ : ∃ calls : List (Call (Handler NoKeys BeepCounter Recorder ByteLoop)),
      calls = [.register (some .ret) fun _ => pure (), .registerAll handlers, .freeze] := ⟨_, rfl⟩
  have h := handlers_are_settled calls
  have hret : Registered calls .ret fun _ => pure () := (h.present _ _).mp (by rw [hcalls]; rfl)
  have hclear : Registered calls .clear fun _ => onVideo Video.clear :=
    (h.present _ _).mp (by rw [hcalls]; rfl)
  have hjump : ∀ g, ¬Registered calls .jump g := by
    rw [forall_not_registered, hcalls]
    rfl
  have hfrozen : Call.freeze ∈ calls := by simp [hcalls]
  refine ⟨calls, fun m => ?_, h.runs _ .clear _ rfl hclear, fun m => h.fails _ m ?_, fun g =>
    (h.refused _ _ _ _).mpr ⟨rfl, .frozen hfrozen⟩, by rw [hcalls]; rfl⟩
  · rw [h.runs _ .ret _ rfl hret]
    rfl
  · intro i hi
    obtain rfl : Instruction.jump = i := Option.some.inj hi
    exact hjump

end Machine

end Chip8
