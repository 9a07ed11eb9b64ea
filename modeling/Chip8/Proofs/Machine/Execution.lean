import Chip8.Proofs.Machine.Stage
import Chip8.Proofs.Video

/-!
# Carrying out an instruction

`execute_eq` joins the two descriptions of the instructions: the handlers of `standardTable`, step
by step, and the definitions of `Chip8.Proofs.Machine.Outcome`, part by part.

The handlers fall into few shapes, since each is put together from effects whose equations are
known. What is left for an instruction is to say what its parts of the outcome are, and that is
read off the definitions.
-/

namespace Chip8

namespace Machine

open Processor

variable {κ β δ ρ : Type} {m : Machine κ β δ ρ}

/-! ### Parts that keep their values -/

section Parts

theorem stack_of_ne (h : m.instruction? ≠ some .call) :
    m.cpu.stack.mapIdx m.slotAfter = m.cpu.stack := by
  have hkeep : m.slotAfter = fun _ old => old := by
    funext s old
    simp [slotAfter, h]
  rw [hkeep, mapIdx_keep]

theorem stack_of_call (h : m.instruction? = some .call) :
    m.cpu.stack.mapIdx m.slotAfter =
      m.cpu.stack.setIfInBounds m.cpu.sp.toNat (m.cpu.pc + 2) := by
  rw [setIfInBounds_eq_mapIdx]
  congr 1
  funext s old
  simp [slotAfter, h]

theorem memory_of_nil (h : m.stored = []) :
    m.cpu.memory.mapIdx m.byteAfter = m.cpu.memory := by
  have hkeep : m.byteAfter = fun _ old => old := by
    funext a old
    simp [byteAfter, h]
  rw [hkeep, mapIdx_keep]

theorem memory_of_stored (h : m.cpu.index.toNat + m.stored.length ≤ m.cpu.memory.size) :
    m.cpu.memory.mapIdx m.byteAfter =
      overwrite m.cpu.memory m.cpu.index.toNat m.stored := by
  rw [overwrite_eq_mapIdx h]
  rfl

variable [KeyInput κ] [ByteSource ρ]

theorem registers_of_none (hr : m.result? = none) (hf : m.flag? = none)
    (hl : m.instruction? ≠ some .load) :
    m.cpu.registers.mapIdx m.registerAfter = m.cpu.registers := by
  have hkeep : m.registerAfter = fun _ old => old := by
    funext r old
    simp [registerAfter, hr, hf, hl]
  rw [hkeep, mapIdx_keep]

theorem registers_of_result {b : UInt8} (hr : m.result? = some b) (hf : m.flag? = none)
    (hl : m.instruction? ≠ some .load) :
    m.cpu.registers.mapIdx m.registerAfter = m.cpu.registers.setIfInBounds m.cpu.word.x b := by
  rw [setIfInBounds_eq_mapIdx]
  congr 1
  funext r old
  by_cases h : r = m.cpu.word.x <;> simp [registerAfter, hr, hf, hl, h]

/-- The flag is the second of two writes, so it stays when both go to `VF`. -/
theorem registers_of_result_flag {a : UInt8} {b : Bool} (hr : m.result? = some a)
    (hf : m.flag? = some b) (hl : m.instruction? ≠ some .load) :
    m.cpu.registers.mapIdx m.registerAfter =
      (m.cpu.registers.setIfInBounds m.cpu.word.x a).setIfInBounds 0xF (Effect.flag b) := by
  rw [setIfInBounds_eq_mapIdx m.cpu.registers, setIfInBounds_mapIdx]
  congr 1
  funext r old
  by_cases h : r = 0xF
  · simp [registerAfter, hf, h, Effect.flag]
  · simp only [registerAfter, if_neg h]
    by_cases h' : r = m.cpu.word.x <;> simp [hr, hl, h']

theorem registers_of_flag {b : Bool} (hr : m.result? = none) (hf : m.flag? = some b)
    (hl : m.instruction? ≠ some .load) :
    m.cpu.registers.mapIdx m.registerAfter =
      m.cpu.registers.setIfInBounds 0xF (Effect.flag b) := by
  rw [setIfInBounds_eq_mapIdx]
  congr 1
  funext r old
  by_cases h : r = 0xF <;> simp [registerAfter, hr, hf, hl, h, Effect.flag]

theorem registers_of_load (hr : m.result? = none) (hf : m.flag? = none)
    (hl : m.instruction? = some .load) :
    m.cpu.registers.mapIdx m.registerAfter =
      m.cpu.registers.mapIdx fun r old =>
        if r ≤ m.cpu.word.x then m.cpu.byte (m.cpu.index.toNat + r) else old := by
  congr 1
  funext r old
  by_cases h : r ≤ m.cpu.word.x <;> simp [registerAfter, hr, hf, hl, h]

end Parts

/-! ### Handlers as equations -/

theorem onCpu_ok {α : Type} {e : Processor.Effect α} {a : α} {p : Processor}
    (h : e m.cpu = .ok a p) :
    (onCpu e : Action κ β δ ρ α) m = .ok a { m with cpu := p } := by
  simp only [onCpu, h]

theorem onCpu_error {α : Type} {e : Processor.Effect α} {f : Fault} {p : Processor}
    (h : e m.cpu = .error f p) :
    (onCpu e : Action κ β δ ρ α) m = .error f { m with cpu := p } := by
  simp only [onCpu, h]

/-- Looking at a register changes nothing. -/
theorem onCpu_get {r : Nat} (h : r < m.cpu.registers.size) :
    (onCpu (Effect.get r) : Action κ β δ ρ UInt8) m = .ok (m.cpu.reg r) m :=
  onCpu_ok (Effect.get_eq h)

/-- An effect that fails or not, by one condition, does so within the machine as well. -/
theorem onCpu_ite {α : Type} {e : Processor.Effect α} {c : Prop} [Decidable c] {f : Fault} {a : α}
    {p : Processor} (h : e m.cpu = if c then .error f m.cpu else .ok a p) :
    (onCpu e : Action κ β δ ρ α) m = if c then .error f m else .ok a { m with cpu := p } := by
  by_cases hc : c
  · rw [if_pos hc] at h ⊢
    exact onCpu_error h
  · rw [if_neg hc] at h ⊢
    exact onCpu_ok h

theorem onVideo_ok {α : Type} {e : Video.Effect δ α} {a : α} {v : Video δ}
    (h : e m.video = .ok a v) :
    (onVideo e : Action κ β δ ρ α) m = .ok a { m with video := v } := by
  simp only [onVideo, h]

theorem onVideo_error {α : Type} {e : Video.Effect δ α} {f : Fault} {v : Video δ}
    (h : e m.video = .error f v) :
    (onVideo e : Action κ β δ ρ α) m = .error f { m with video := v } := by
  simp only [onVideo, h]

theorem skipByte_eq (test : UInt8 → Nat → Bool) {w : Word} (hx : w.x < m.cpu.registers.size)
    (hp : 0 ≤ m.cpu.pc ∧ m.cpu.pc ≤ 0x1000) :
    (skipByte test : Handler κ β δ ρ) w m =
      .ok () { m with cpu := { m.cpu with
        pc := if test (m.cpu.reg w.x) w.nn then m.cpu.pc + 2 else m.cpu.pc } } := by
  apply onCpu_ok
  rw [bind_ok (Effect.get_eq hx), Effect.skipIf_eq _ hp]

theorem skipRegister_eq (test : UInt8 → UInt8 → Bool) {w : Word}
    (hx : w.x < m.cpu.registers.size) (hy : w.y < m.cpu.registers.size)
    (hp : 0 ≤ m.cpu.pc ∧ m.cpu.pc ≤ 0x1000) :
    (skipRegister test : Handler κ β δ ρ) w m =
      .ok () { m with cpu := { m.cpu with
        pc := if test (m.cpu.reg w.x) (m.cpu.reg w.y) then m.cpu.pc + 2 else m.cpu.pc } } := by
  apply onCpu_ok
  rw [bind_ok (Effect.get_eq hx), bind_ok (Effect.get_eq hy), Effect.skipIf_eq _ hp]

theorem skipOnKey_eq [KeyInput κ] (down : Bool) {w : Word} (hx : w.x < m.cpu.registers.size)
    (hp : 0 ≤ m.cpu.pc ∧ m.cpu.pc ≤ 0x1000) :
    (skipOnKey down : Handler κ β δ ρ) w m =
      .ok () { m with cpu := { m.cpu with
        pc := if KeyInput.isDown m.keys (keyOf (m.cpu.reg w.x)) == down then m.cpu.pc + 2
          else m.cpu.pc } } := by
  have hg : (get : Action κ β δ ρ _) m = .ok m m := rfl
  rw [skipOnKey, bind_ok (onCpu_get hx), bind_ok hg, onCpu_ok (Effect.skipIf_eq _ hp)]

theorem addByte_eq {w : Word} (hx : w.x < m.cpu.registers.size) :
    (addByte : Handler κ β δ ρ) w m =
      .ok () { m with cpu := { m.cpu with
        registers := m.cpu.registers.setIfInBounds w.x
          (m.cpu.reg w.x + UInt8.ofNat w.nn) } } := by
  apply onCpu_ok
  rw [bind_ok (Effect.get_eq hx), Effect.put_eq hx]

theorem random_eq [ByteSource ρ] {w : Word} (hx : w.x < m.cpu.registers.size) :
    (random : Handler κ β δ ρ) w m =
      .ok () { m with
        cpu := { m.cpu with
          registers := m.cpu.registers.setIfInBounds w.x
            ((ByteSource.draw m.bytes).1 &&& UInt8.ofNat w.nn) }
        bytes := (ByteSource.draw m.bytes).2 } := by
  have hr : (randomByte : Action κ β δ ρ UInt8) m =
      .ok (ByteSource.draw m.bytes).1 { m with bytes := (ByteSource.draw m.bytes).2 } := rfl
  rw [random, bind_ok hr]
  exact onCpu_ok (Effect.put_eq hx _)

/-- Looking through the keys from the first finds the lowest one that was let go. -/
theorem releasedKey?_eq [KeyInput κ] (m : Machine κ β δ ρ) : releasedKey? m.keys = m.letGo? := by
  cases h : m.letGo? with
  | none =>
    have hnone := Fin.find?_eq_none_iff.mp h
    exact List.find?_eq_none.mpr fun k _ => by simp [hnone k]
  | some k =>
    obtain ⟨hk, hlow⟩ := Fin.find?_eq_some_iff.mp h
    refine List.find?_eq_some_iff_getElem.mpr ⟨hk, k, ?_, List.getElem_finRange _, fun j hj => ?_⟩
    · rw [List.length_finRange]
      exact k.isLt
    · rw [List.getElem_finRange, Bool.not_eq_true']
      exact hlow ⟨j, Nat.lt_trans hj k.isLt⟩ hj

/-- Waiting for a key ends with the lowest key that was let go, or goes back to the word. -/
theorem waitKey_eq [KeyInput κ] {w : Word} (hx : w.x < m.cpu.registers.size)
    (hp : 2 ≤ m.cpu.pc ∧ m.cpu.pc ≤ 0x1000) :
    (waitKey : Handler κ β δ ρ) w m =
      match releasedKey? m.keys with
      | some k => .ok () { m with cpu := { m.cpu with
          registers := m.cpu.registers.setIfInBounds w.x (UInt8.ofNat k) } }
      | none => .ok () { m with cpu := { m.cpu with pc := m.cpu.pc - 2 } } := by
  have hg : (get : Action κ β δ ρ _) m = .ok m m := rfl
  rw [waitKey, bind_ok hg]
  cases releasedKey? m.keys with
  | some k => exact onCpu_ok (Effect.put_eq hx _)
  | none =>
    have hmod : (m.cpu.pc + -2) % 0x10000 = m.cpu.pc - 2 := by
      rw [Int.emod_eq_of_lt (by omega) (by omega)]
      rfl
    refine onCpu_ok ?_
    change EStateM.Result.ok () { m.cpu with pc := (m.cpu.pc + -2) % 0x10000 } = _
    rw [hmod]

/-! ### Drawing

Drawing looks at the sprite first. Then the screen changes and is presented, and `VF` is written
only if that worked. -/

section Draw

variable [Display δ] {w : Word} {bytes : List UInt8} {x y : Nat} {s : Sprite}

theorem draw_refused (hx : w.x < m.cpu.registers.size) (hy : w.y < m.cpu.registers.size)
    {f : Fault} (h : Effect.fromIndex w.n m.cpu = .error f m.cpu) :
    (draw : Handler κ β δ ρ) w m = .error f m := by
  rw [draw, bind_ok (onCpu_get hx), bind_ok (onCpu_get hy)]
  exact bind_error (onCpu_error h)

/-- With the sprite at hand, all is left to the screen. -/
theorem draw_eq_of_bytes (hx : w.x < m.cpu.registers.size) (hy : w.y < m.cpu.registers.size)
    (h : Effect.fromIndex w.n m.cpu = .ok bytes m.cpu)
    (ex : (m.cpu.reg w.x).toNat % screenWidth = x) (ey : (m.cpu.reg w.y).toNat % screenHeight = y)
    (es : bytes.map (fun b => (b.toNat : Int)) = s) :
    (draw : Handler κ β δ ρ) w m =
      (do let hit ← onVideo (Video.draw x y s)
          onCpu (Effect.put 0xF (Effect.flag hit))) m := by
  rw [draw, bind_ok (onCpu_get hx), bind_ok (onCpu_get hy), bind_ok (onCpu_ok h), ex, ey, es]

theorem onVideo_draw_failed {reason : DeviceFailure}
    (hu : (Display.present (m.screen.draw x y s) m.display).failure = some reason) :
    (onVideo (Video.draw x y s) : Action κ β δ ρ Bool) m =
      .error (.device reason) { m with
        video := ⟨m.screen.draw x y s,
          (Display.present (m.screen.draw x y s) m.display).device⟩ } :=
  onVideo_error (Video.draw_error hu)

theorem onVideo_draw_done
    (hu : (Display.present (m.screen.draw x y s) m.display).failure = none) :
    (onVideo (Video.draw x y s) : Action κ β δ ρ Bool) m =
      .ok (m.screen.collides x y s) { m with
        video := ⟨m.screen.draw x y s,
          (Display.present (m.screen.draw x y s) m.display).device⟩ } :=
  onVideo_ok (Video.draw_ok hu)

end Draw

/-! ### The outcome of an instruction -/

section Outcome

variable [KeyInput κ] [Sounder β] [Display δ] [ByteSource ρ] {i : Instruction}

/-- The outcome of an instruction: it is refused, or the display fails, or all of it is done. -/
def outcome (m : Machine κ β δ ρ) : EStateM.Result Fault (Machine κ β δ ρ) Unit :=
  match m.faultAt? .stack <|> m.faultAt? .access with
  | some f => .error f m.past
  | none =>
    match m.displayFailure? with
    | some reason => .error (.device reason) { m.past with video := m.videoAfter }
    | none => .ok () m.obeyed

attribute [local simp] outcome faultAt? extent? displayFailure? shown? obeyed past cpuAfter
  result? flag? indexAfter stored spAfter skips pcAfter delaySet soundSet videoAfter bytesAfter
  registers_of_none registers_of_result registers_of_result_flag registers_of_flag
  stack_of_ne stack_of_call memory_of_nil

/-- Instructions that change `Vx` and nothing else. -/
theorem outcome_of_result {b : UInt8} (hi : m.instruction? = some i) (hr : m.result? = some b)
    (h : i ∈ [.loadByte, .addByte, .copy, .bitOr, .bitAnd, .bitXor, .readDelay]) :
    m.outcome = .ok () { m.past with cpu := { m.past.cpu with
      registers := m.cpu.registers.setIfInBounds m.cpu.word.x b } } := by
  simp only [List.mem_cons, List.not_mem_nil, or_false] at h
  rcases h with rfl | rfl | rfl | rfl | rfl | rfl | rfl <;> simp [hi] at hr <;> simp [hi, hr]

/-- Instructions that change `Vx` and then `VF`. -/
theorem outcome_of_flag {a : UInt8} {b : Bool} (hi : m.instruction? = some i)
    (hr : m.result? = some a) (hf : m.flag? = some b)
    (h : i ∈ [.add, .sub, .subFrom, .shiftRight, .shiftLeft]) :
    m.outcome = .ok () { m.past with cpu := { m.past.cpu with
      registers := (m.cpu.registers.setIfInBounds m.cpu.word.x a).setIfInBounds 0xF
        (Effect.flag b) } } := by
  simp only [List.mem_cons, List.not_mem_nil, or_false] at h
  rcases h with rfl | rfl | rfl | rfl | rfl <;> simp [hi] at hr hf <;> simp [hi, hr, hf]

/-- Instructions that move the program counter past another word, or do nothing. -/
theorem outcome_of_skip {c : Bool} (hi : m.instruction? = some i) (hc : m.skips = c)
    (h : i ∈ [.skipIfByte, .skipUnlessByte, .skipIfSame, .skipUnlessSame, .skipIfKey,
      .skipUnlessKey]) :
    m.outcome = .ok () { m.past with cpu := { m.past.cpu with
      pc := if c then m.past.cpu.pc + 2 else m.past.cpu.pc } } := by
  have hpc : m.cpu.pc + 2 + 2 = m.cpu.pc + 4 := by omega
  simp only [List.mem_cons, List.not_mem_nil, or_false] at h
  rcases h with rfl | rfl | rfl | rfl | rfl | rfl <;> simp [hi] at hc <;> simp [hi, hc, hpc]

/-- Instructions that go somewhere. -/
theorem outcome_of_jump {a : Int} (hi : m.instruction? = some i) (ha : m.pcAfter = a)
    (h : i ∈ [.jump, .jumpOffset]) :
    m.outcome = .ok () { m.past with cpu := { m.past.cpu with pc := a } } := by
  simp only [List.mem_cons, List.not_mem_nil, or_false] at h
  rcases h with rfl | rfl <;> simp [hi] at ha <;> simp [hi, ha]

/-- Instructions that change `I`. -/
theorem outcome_of_index {n : Int} (hi : m.instruction? = some i) (hn : m.indexAfter = n)
    (h : i ∈ [.loadIndex, .addIndex, .glyph]) :
    m.outcome = .ok () { m.past with cpu := { m.past.cpu with index := n } } := by
  simp only [List.mem_cons, List.not_mem_nil, or_false] at h
  rcases h with rfl | rfl | rfl <;> simp [hi] at hn <;> simp [hi, hn]

/-- An instruction that is refused leaves the machine as it was past the word. -/
theorem outcome_of_refused {f : Fault} (h : (m.faultAt? .stack <|> m.faultAt? .access) = some f) :
    m.outcome = .error f m.past := by
  rw [outcome, h]

theorem outcome_of_passed (hs : m.faultAt? .stack = none) (ha : m.faultAt? .access = none)
    (hd : m.displayFailure? = none) : m.outcome = .ok () m.obeyed := by
  rw [outcome, hs, ha, hd]
  rfl

/-- A display that fails leaves the screen as it was to be shown, and nothing else is done. -/
theorem outcome_of_display_failed {reason : DeviceFailure} (hs : m.faultAt? .stack = none)
    (ha : m.faultAt? .access = none) (hd : m.displayFailure? = some reason) :
    m.outcome = .error (.device reason) { m.past with video := m.videoAfter } := by
  rw [outcome, hs, ha, hd]
  rfl

/-- Instructions that store bytes at `I`. -/
theorem outcome_of_stored {bytes : List UInt8} (hi : m.instruction? = some i)
    (hm : m.cpu.memory.size = memorySize) (hx : 0 ≤ m.cpu.index) (hb : m.stored = bytes)
    (h : i ∈ [.decimal, .store]) :
    m.outcome =
      if memorySize < m.cpu.index + bytes.length then
        .error (.outsideMemory (max m.cpu.index memorySize)) m.past
      else .ok () { m.past with cpu := { m.past.cpu with
        memory := overwrite m.cpu.memory m.cpu.index.toNat bytes } } := by
  subst hb
  have hcases : i = .decimal ∨ i = .store := by simpa using h
  have hs : m.faultAt? .stack = none := by rcases hcases with rfl | rfl <;> simp [hi]
  have hd : m.displayFailure? = none := by rcases hcases with rfl | rfl <;> simp [hi]
  have ha := faultAt?_access (m := m) (n := m.stored.length) (by
    rcases hcases with rfl | rfl <;> simp [hi, Effect.decimalBytes])
  by_cases hc : memorySize < m.cpu.index + m.stored.length
  · rw [if_pos hc] at ha ⊢
    exact outcome_of_refused (by rw [hs, ha]; rfl)
  · rw [if_neg hc] at ha ⊢
    have hmem := memory_of_stored (m := m) (by omega)
    rw [outcome_of_passed hs ha hd]
    rcases hcases with rfl | rfl <;> simp [hi, hmem]

theorem outcome_of_load (hi : m.instruction? = some .load) :
    m.outcome =
      if memorySize < m.cpu.index + (m.cpu.word.x + 1 : Nat) then
        .error (.outsideMemory (max m.cpu.index memorySize)) m.past
      else .ok () { m.past with cpu := { m.past.cpu with
        registers := m.cpu.registers.mapIdx fun r old =>
          if r ≤ m.cpu.word.x then m.cpu.byte (m.cpu.index.toNat + r) else old } } := by
  have hs : m.faultAt? .stack = none := by simp [hi]
  have hd : m.displayFailure? = none := by simp [hi]
  have ha := faultAt?_access (m := m) (n := m.cpu.word.x + 1) (by simp [hi])
  by_cases hc : memorySize < m.cpu.index + (m.cpu.word.x + 1 : Nat)
  · rw [if_pos hc] at ha ⊢
    exact outcome_of_refused (by rw [hs, ha]; rfl)
  · rw [if_neg hc] at ha ⊢
    have hreg := registers_of_load (m := m) (by simp [hi]) (by simp [hi]) hi
    rw [outcome_of_passed hs ha hd]
    simp [hi, hreg]

/-- A call that finds a free slot, and one that does not. -/
theorem outcome_of_call (hi : m.instruction? = some .call) (hp : m.cpu.sp ≤ stackDepth) :
    m.outcome =
      if stackDepth ≤ m.cpu.sp then .error (.stackFull m.cpu.pc) m.past
      else .ok () { m.past with cpu := { m.past.cpu with
        stack := m.cpu.stack.setIfInBounds m.cpu.sp.toNat (m.cpu.pc + 2)
        sp := m.cpu.sp + 1
        pc := m.cpu.word.nnn } } := by
  have hsp : m.cpu.sp = stackDepth ↔ (stackDepth : Int) ≤ m.cpu.sp := by omega
  by_cases hc : (stackDepth : Int) ≤ m.cpu.sp
  · rw [if_pos hc]
    exact outcome_of_refused (by simp [hi, hsp, hc])
  · rw [if_neg hc, outcome_of_passed] <;> simp [hi, hsp, hc]

theorem outcome_of_ret (hi : m.instruction? = some .ret) :
    m.outcome =
      if m.cpu.sp = 0 then .error (.stackEmpty m.cpu.pc) m.past
      else .ok () { m.past with cpu := { m.past.cpu with
        sp := m.cpu.sp - 1, pc := m.cpu.slot (m.cpu.sp - 1).toNat } } := by
  by_cases hc : m.cpu.sp = 0
  · rw [if_pos hc]
    exact outcome_of_refused (by simp [hi, hc])
  · rw [if_neg hc, outcome_of_passed] <;> simp [hi, hc]

/-- Clearing the screen works as far as the display does. -/
theorem outcome_of_clear (hi : m.instruction? = some .clear) :
    m.outcome =
      match (Display.present .blank m.display).failure with
      | some reason => .error (.device reason) { m.past with
          video := ⟨.blank, (Display.present .blank m.display).device⟩ }
      | none => .ok () { m.past with
          video := ⟨.blank, (Display.present .blank m.display).device⟩ } := by
  cases hu : (Display.present .blank m.display).failure <;> simp [hi, hu]

/-- Drawing with a sprite that is all in memory: only if the display works is `VF` written. -/
theorem outcome_of_draw {s : Screen}
    (hi : m.instruction? = some .draw) (ha : ¬memorySize < m.cpu.index + m.cpu.word.n)
    (hs : m.screen.draw (m.vx.toNat % screenWidth) (m.vy.toNat % screenHeight) m.sprite = s) :
    m.outcome =
      match (Display.present s m.display).failure with
      | some reason => .error (.device reason) { m.past with
          video := ⟨s, (Display.present s m.display).device⟩ }
      | none => .ok () { m.past with
          cpu := { m.past.cpu with
            registers := m.cpu.registers.setIfInBounds 0xF (Effect.flag (m.screen.collides
              (m.vx.toNat % screenWidth) (m.vy.toNat % screenHeight) m.sprite)) }
          video := ⟨s, (Display.present s m.display).device⟩ } := by
  have hf := flag?_of_draw hi
  cases hu : (Display.present s m.display).failure <;> simp [hi, ha, hs, hu, hf, -flag?]

theorem outcome_of_random (hi : m.instruction? = some .random) :
    m.outcome = .ok () { m.past with
      cpu := { m.past.cpu with
        registers := m.cpu.registers.setIfInBounds m.cpu.word.x
          ((ByteSource.draw m.bytes).1 &&& UInt8.ofNat m.cpu.word.nn) }
      bytes := (ByteSource.draw m.bytes).2 } := by
  simp [hi]

theorem outcome_of_waitKey (hi : m.instruction? = some .waitKey) :
    m.outcome =
      match m.letGo? with
      | some k => .ok () { m.past with cpu := { m.past.cpu with
          registers := m.cpu.registers.setIfInBounds m.cpu.word.x (UInt8.ofNat k) } }
      | none => .ok () { m.past with cpu := { m.past.cpu with pc := m.cpu.pc } } := by
  cases hk : m.letGo? <;> simp [hi, hk]

theorem outcome_of_setDelay (hi : m.instruction? = some .setDelay) :
    m.outcome = .ok () { m.past with cpu := { m.past.cpu with delay := m.vx.toNat } } := by
  simp [hi]

theorem outcome_of_setSound (hi : m.instruction? = some .setSound) :
    m.outcome = .ok () { m.past with cpu := { m.past.cpu with sound := m.vx.toNat } } := by
  simp [hi]

end Outcome

/-! ### The handlers have these outcomes -/

variable [KeyInput κ] [Display δ] [ByteSource ρ] {i : Instruction}

theorem execute_of {w : Word} {h : Handler κ β δ ρ} (hi : w.decode = some i)
    (hh : standardTable.handler? i = some h) : execute w m = h w m := by
  simp only [execute, dispatch, HandlerTable.handlerOf?, hi, Option.bind_some, hh]

variable [Sounder β]

/-- Drawing refuses a sprite that is not all in memory, and otherwise is left to the screen. -/
theorem execute_draw (h : m.past.cpu.Intact) (hi : m.instruction? = some .draw) :
    execute m.cpu.word m.past = m.outcome := by
  have hx := h.x_lt m.cpu.word
  have hy := h.y_lt m.cpu.word
  have hr : Effect.fromIndex m.cpu.word.n m.past.cpu =
      if memorySize < m.cpu.index + m.cpu.word.n then
        .error (.outsideMemory (max m.cpu.index memorySize)) m.past.cpu
      else .ok (m.cpu.bytesAt m.cpu.index.toNat m.cpu.word.n) m.past.cpu :=
    Effect.fromIndex_eq h.memory h.index.1 m.cpu.word.n
  rw [execute_of hi rfl]
  by_cases hc : memorySize < m.cpu.index + m.cpu.word.n
  · have hs : m.faultAt? .stack = none := by simp only [faultAt?, hi]
    have ha := faultAt?_access (m := m) (n := m.cpu.word.n) (by simp only [extent?, hi])
    rw [if_pos hc] at hr ha
    rw [draw_refused hx hy hr]
    exact (outcome_of_refused (by rw [hs, ha]; rfl)).symm
  · rw [if_neg hc] at hr
    rw [outcome_of_draw hi hc rfl]
    refine (draw_eq_of_bytes hx hy hr rfl rfl rfl).trans ?_
    cases hu : (Display.present (m.screen.draw (m.vx.toNat % screenWidth)
        (m.vy.toNat % screenHeight) m.sprite) m.display).failure with
    | some reason => exact bind_error (onVideo_draw_failed (m := m.past) hu)
    | none =>
      refine (bind_ok (onVideo_draw_done (m := m.past) hu)).trans ?_
      exact onCpu_ok (Effect.put_eq h.flag_lt _)

/-- The handler of an instruction does what the definitions of its outcome say. -/
theorem execute_eq (h : m.cpu.Intact) (hp : m.cpu.pc ≤ 4094) (hi : m.instruction? = some i) :
    execute m.cpu.word m.past = m.outcome := by
  have h' : m.past.cpu.Intact := past_intact h hp
  have hx := h'.x_lt m.cpu.word
  have hy := h'.y_lt m.cpu.word
  have hf := h'.flag_lt
  have hpc : 2 ≤ m.past.cpu.pc ∧ m.past.cpu.pc ≤ 0x1000 := by
    have := h.pc.1
    change 2 ≤ m.cpu.pc + 2 ∧ m.cpu.pc + 2 ≤ 0x1000
    omega
  have hpc' : 0 ≤ m.past.cpu.pc ∧ m.past.cpu.pc ≤ 0x1000 := ⟨by omega, hpc.2⟩
  -- The program counter is past the word already, but faults tell where the word was.
  have hback : m.past.cpu.pc - 2 = m.cpu.pc := Int.add_sub_cancel _ _
  -- In each case: the handler, the outcome by its shape, and the equation of the effect.
  cases i with
  | clear =>
    rw [execute_of hi rfl, outcome_of_clear hi]
    cases hu : (Display.present .blank m.display).failure with
    | some reason => exact onVideo_error (Video.replace_error hu)
    | none => exact onVideo_ok (Video.replace_ok hu)
  | ret =>
    have he := Effect.ret_eq h'.stack h'.sp
    rw [hback] at he
    rw [execute_of hi rfl, outcome_of_ret hi]
    exact onCpu_ite he
  | jump =>
    rw [execute_of hi rfl, outcome_of_jump hi rfl (by simp)]
    simp only [pcAfter, hi]
    rfl
  | call =>
    have he := Effect.call_eq h'.stack h'.sp.1 m.cpu.word.nnn
    rw [hback] at he
    rw [execute_of hi rfl, outcome_of_call hi h.sp.2]
    exact onCpu_ite he
  | jumpOffset =>
    rw [execute_of hi rfl, outcome_of_jump hi rfl (by simp)]
    simp only [pcAfter, hi]
    exact onCpu_ok (Effect.jumpOffset_eq (by omega) m.cpu.word.nnn_lt)
  | skipIfByte =>
    rw [execute_of hi rfl, outcome_of_skip hi rfl (by simp)]
    simp only [skips, hi]
    exact skipByte_eq _ hx hpc'
  | skipUnlessByte =>
    rw [execute_of hi rfl, outcome_of_skip hi rfl (by simp)]
    simp only [skips, hi]
    exact skipByte_eq _ hx hpc'
  | skipIfSame =>
    rw [execute_of hi rfl, outcome_of_skip hi rfl (by simp)]
    simp only [skips, hi]
    exact skipRegister_eq _ hx hy hpc'
  | skipUnlessSame =>
    rw [execute_of hi rfl, outcome_of_skip hi rfl (by simp)]
    simp only [skips, hi]
    exact skipRegister_eq _ hx hy hpc'
  | skipIfKey =>
    rw [execute_of hi rfl, outcome_of_skip hi rfl (by simp)]
    have hkey : m.skips = (KeyInput.isDown m.keys (keyOf m.vx) == true) := by
      simp [skips, hi, testedKey, keyOf]
    rw [hkey]
    exact skipOnKey_eq true hx hpc'
  | skipUnlessKey =>
    rw [execute_of hi rfl, outcome_of_skip hi rfl (by simp)]
    have hkey : m.skips = (KeyInput.isDown m.keys (keyOf m.vx) == false) := by
      simp [skips, hi, testedKey, keyOf]
    rw [hkey]
    exact skipOnKey_eq false hx hpc'
  | loadByte =>
    rw [execute_of hi rfl, outcome_of_result hi (by rw [result?, hi]) (by simp)]
    exact onCpu_ok (Effect.put_eq hx _)
  | addByte =>
    rw [execute_of hi rfl, outcome_of_result hi (by rw [result?, hi]) (by simp)]
    exact addByte_eq hx
  | random =>
    rw [execute_of hi rfl, outcome_of_random hi]
    exact random_eq hx
  | copy =>
    rw [execute_of hi rfl, outcome_of_result hi (by rw [result?, hi]) (by simp)]
    exact onCpu_ok (Effect.copy_eq hx hy)
  | bitOr =>
    rw [execute_of hi rfl, outcome_of_result hi (by rw [result?, hi]) (by simp)]
    exact onCpu_ok (Effect.combine_eq _ hx hy)
  | bitAnd =>
    rw [execute_of hi rfl, outcome_of_result hi (by rw [result?, hi]) (by simp)]
    exact onCpu_ok (Effect.combine_eq _ hx hy)
  | bitXor =>
    rw [execute_of hi rfl, outcome_of_result hi (by rw [result?, hi]) (by simp)]
    exact onCpu_ok (Effect.combine_eq _ hx hy)
  | readDelay =>
    rw [execute_of hi rfl, outcome_of_result hi (by rw [result?, hi]) (by simp)]
    exact onCpu_ok (Effect.readDelay_eq hx h'.delay)
  | add =>
    rw [execute_of hi rfl, outcome_of_flag hi (by rw [result?, hi])
      (by rw [flag?, hi]) (by simp)]
    exact onCpu_ok (Effect.combineFlag_eq _ _ hx hy hf)
  | sub =>
    rw [execute_of hi rfl, outcome_of_flag hi (by rw [result?, hi])
      (by rw [flag?, hi]) (by simp)]
    exact onCpu_ok (Effect.combineFlag_eq _ _ hx hy hf)
  | subFrom =>
    rw [execute_of hi rfl, outcome_of_flag hi (by rw [result?, hi])
      (by rw [flag?, hi]) (by simp)]
    exact onCpu_ok (Effect.combineFlag_eq _ _ hx hy hf)
  | shiftRight =>
    rw [execute_of hi rfl, outcome_of_flag hi (by rw [result?, hi])
      (by rw [flag?, hi]) (by simp)]
    exact onCpu_ok (Effect.shift_eq _ _ hx hy hf)
  | shiftLeft =>
    rw [execute_of hi rfl, outcome_of_flag hi (by rw [result?, hi])
      (by rw [flag?, hi]) (by simp)]
    exact onCpu_ok (Effect.shift_eq _ _ hx hy hf)
  | loadIndex =>
    rw [execute_of hi rfl, outcome_of_index hi (by rw [indexAfter, hi]) (by simp)]
    rfl
  | addIndex =>
    rw [execute_of hi rfl, outcome_of_index hi (by rw [indexAfter, hi]) (by simp)]
    exact onCpu_ok (bind_ok (Effect.get_eq hx))
  | glyph =>
    rw [execute_of hi rfl, outcome_of_index hi (by rw [indexAfter, hi]) (by simp)]
    exact onCpu_ok (bind_ok (Effect.get_eq hx))
  | decimal =>
    rw [execute_of hi rfl, outcome_of_stored hi h.memory h.index.1
      (by rw [stored, hi]) (by simp)]
    exact onCpu_ite (Effect.decimal_eq hx h'.index.1)
  | store =>
    rw [execute_of hi rfl, outcome_of_stored hi h.memory h.index.1
      (by rw [stored, hi]) (by simp), List.length_map, List.length_range]
    exact onCpu_ite (Effect.store_eq hx h'.index.1)
  | load =>
    rw [execute_of hi rfl, outcome_of_load hi]
    exact onCpu_ite (Effect.load_eq h'.memory hx h'.index.1)
  | draw => exact execute_draw h' hi
  | waitKey =>
    rw [execute_of hi rfl, outcome_of_waitKey hi]
    have hw := waitKey_eq (m := m.past) hx hpc
    rw [hback, releasedKey?_eq] at hw
    exact hw
  | setDelay =>
    rw [execute_of hi rfl, outcome_of_setDelay hi]
    exact onCpu_ok (bind_ok (Effect.get_eq hx))
  | setSound =>
    rw [execute_of hi rfl, outcome_of_setSound hi]
    exact onCpu_ok (bind_ok (Effect.get_eq hx))

end Machine

end Chip8
