import Chip8.Proofs.Machine.Course

/-!
# Cycles leave the keys alone

Instructions look at the keys, and none of them presses one or lets one go. So all cycles between
two changes from outside see the same keys. This holds of every machine, intact or not, and of
cycles that fail as well.

The actions are put together from smaller ones, and what leaves the keys alone does so when it is
put together, too.

## Main result

* `keys_run` — the keys after a run of cycles
-/

namespace Chip8

namespace Machine

open Processor (Effect)

variable {κ β δ ρ α γ : Type}

/-- Whether an action leaves the keys as they are, even if it fails. -/
def KeepsKeys (a : Action κ β δ ρ α) : Prop :=
  ∀ m, (after a m).keys = m.keys

section Keeps

variable {a : Action κ β δ ρ α} {m m' : Machine κ β δ ρ}

theorem KeepsKeys.of_ok (h : KeepsKeys a) {x : α} (he : a m = .ok x m') : m'.keys = m.keys := by
  have hm := h m
  rwa [after, he] at hm

theorem KeepsKeys.of_error (h : KeepsKeys a) {f : Fault} (he : a m = .error f m') :
    m'.keys = m.keys := by
  have hm := h m
  rwa [after, he] at hm

theorem KeepsKeys.bind {f : α → Action κ β δ ρ γ} (ha : KeepsKeys a)
    (hf : ∀ x, KeepsKeys (f x)) : KeepsKeys (a >>= f) := by
  intro m
  rw [after]
  cases he : a m with
  | error e m' =>
    rw [bind_error he]
    exact ha.of_error he
  | ok x m' =>
    rw [bind_ok he]
    exact (hf x m').trans (ha.of_ok he)

end Keeps

theorem keepsKeys_pure (x : α) : KeepsKeys (pure x : Action κ β δ ρ α) := fun _ => rfl

theorem keepsKeys_get : KeepsKeys (get : Action κ β δ ρ (Machine κ β δ ρ)) := fun _ => rfl

theorem keepsKeys_modify {f : Machine κ β δ ρ → Machine κ β δ ρ} (h : ∀ m, (f m).keys = m.keys) :
    KeepsKeys (modify f : Action κ β δ ρ PUnit) := h

theorem keepsKeys_onCpu (e : Effect α) : KeepsKeys (onCpu e : Action κ β δ ρ α) := by
  intro m
  rw [after, onCpu]
  cases e m.cpu <;> rfl

theorem keepsKeys_onVideo (e : Video.Effect δ α) : KeepsKeys (onVideo e : Action κ β δ ρ α) := by
  intro m
  rw [after, onVideo]
  cases e m.video <;> rfl

theorem keepsKeys_randomByte [ByteSource ρ] :
    KeepsKeys (randomByte : Action κ β δ ρ UInt8) := fun _ => rfl

theorem keepsKeys_beep [Sounder β] : KeepsKeys (beep : Action κ β δ ρ Unit) := by
  intro m
  rw [after, beep]
  cases (Sounder.beep m.sounder).failure <;> rfl

/-- A tick works on the timers and the tone. -/
theorem keepsKeys_tick [Sounder β] : KeepsKeys (tick : Action κ β δ ρ Unit) := by
  refine keepsKeys_get.bind fun before => KeepsKeys.bind (keepsKeys_modify fun _ => rfl) fun _ => ?_
  split
  · exact keepsKeys_beep
  · exact keepsKeys_pure ()

theorem keys_record (before : Processor) (w : Option Word) (failure : Option Fault)
    (m : Machine κ β δ ρ) : (m.record before w failure).keys = m.keys := by
  rw [record_eq]

variable [KeyInput κ] [Display δ] [ByteSource ρ]

/-- The handlers for the keys look at them only. -/
theorem keepsKeys_handler {i : Instruction} {h : Handler κ β δ ρ}
    (hh : standardTable.handler? i = some h) (w : Word) : KeepsKeys (h w) := by
  cases i <;> obtain rfl := Option.some.inj hh
  case clear => exact keepsKeys_onVideo _
  case random => exact keepsKeys_randomByte.bind fun b => keepsKeys_onCpu _
  case draw =>
    exact (keepsKeys_onCpu _).bind fun x => (keepsKeys_onCpu _).bind fun y =>
      (keepsKeys_onCpu _).bind fun sprite => (keepsKeys_onVideo _).bind fun hit => keepsKeys_onCpu _
  case skipIfKey | skipUnlessKey =>
    exact (keepsKeys_onCpu _).bind fun b => keepsKeys_get.bind fun m => keepsKeys_onCpu _
  case waitKey =>
    refine keepsKeys_get.bind fun m => ?_
    cases releasedKey? m.keys with
    | some k => exact keepsKeys_onCpu _
    | none => exact keepsKeys_onCpu _
  all_goals exact keepsKeys_onCpu _

theorem keepsKeys_perform (pc : Int) (w : Word) :
    KeepsKeys (perform pc w : Action κ β δ ρ Unit) := by
  intro m
  cases hi : w.decode with
  | none => simp only [after, perform, hi]
  | some i =>
    obtain ⟨h, hh⟩ := Option.isSome_iff_exists.mp
      (isSome_handler_standardTable (κ := κ) (β := β) (δ := δ) (ρ := ρ) i)
    have hp : (perform pc w : Action κ β δ ρ Unit) m = h w m := by
      simp only [perform, hi]
      exact execute_of hi hh
    rw [after, hp]
    exact keepsKeys_handler hh w m

variable [Sounder β]

/-- The steps of a cycle leave the keys alone, wherever it ends. -/
theorem keepsKeys_cycle : KeepsKeys (cycle : Action κ β δ ρ Unit) := by
  intro m
  rw [after, cycle]
  cases fetch m.cpu with
  | error f => exact keys_record _ _ _ _
  | ok w =>
    have hp := keepsKeys_perform (κ := κ) (β := β) (δ := δ) (ρ := ρ) m.cpu.pc w
    have ht := keepsKeys_tick (κ := κ) (β := β) (δ := δ) (ρ := ρ)
    have hadvance : m.advance.keys = m.keys := rfl
    rw [← hadvance]
    cases he : perform m.cpu.pc w m.advance with
    | error f m' =>
      simp only [he, keys_record]
      exact hp.of_error he
    | ok _ m' =>
      cases hu : tick m' with
      | error f m'' =>
        simp only [he, hu]
        exact (ht.of_error hu).trans (hp.of_ok he)
      | ok _ m'' =>
        simp only [he, hu, keys_record]
        exact (ht.of_ok hu).trans (hp.of_ok he)

/-- However many cycles are run, the keys stay. -/
theorem keys_run (n : Nat) (m : Machine κ β δ ρ) : (after (run n) m).keys = m.keys :=
  run_induction (P := fun m' => m'.keys = m.keys) (fun m' h => (keepsKeys_cycle m').trans h) n rfl

end Machine

end Chip8
