import Chip8.Proofs.Machine.Cycle
import Chip8.Proofs.Word.Pattern

/-!
# Cycles that are completed

What a cycle changes that does not fail, and that it changes nothing else. The parts of the machine
are those of `Chip8.Proofs.Machine.Outcome`; here they are put together for the cycle as a whole,
with the timers run down and the cycle counted.

The definitions there say for each register what it has afterwards. Which registers are written at
all is a coarser question, and `writes` answers it instruction by instruction.

## Main results

* `registerAfter_of_not_mem_writes` — the registers that an instruction does not write keep their
  values
* `effects_of_completed_cycle` — the machine after a cycle
-/

namespace Chip8

namespace Machine

open Processor

variable {κ β δ ρ : Type} {m m' : Machine κ β δ ρ}

/-- A record is kept beside the processor. -/
@[simp] theorem record_cpu (before : Processor) (w : Option Word) (failure : Option Fault) :
    (m.record before w failure).cpu = m.cpu := by
  rw [record]
  split <;> rfl

/-- A record is kept in the trace, and nowhere else. -/
theorem record_eq (before : Processor) (w : Option Word) (failure : Option Fault) :
    m.record before w failure = { m with trace := (m.record before w failure).trace } := by
  rw [record]
  split <;> rfl

/-! ### Registers -/

variable [KeyInput κ]

/-- The registers that the instruction writes. -/
def writes (m : Machine κ β δ ρ) : List Nat :=
  match m.instruction? with
  | some .loadByte | some .addByte | some .random | some .copy | some .bitOr | some .bitAnd
  | some .bitXor | some .readDelay => [m.cpu.word.x]
  | some .waitKey => if m.letGo?.isSome then [m.cpu.word.x] else []
  | some .add | some .sub | some .subFrom | some .shiftRight | some .shiftLeft =>
    [m.cpu.word.x, 0xF]
  | some .draw => [0xF]
  | some .load => List.range (m.cpu.word.x + 1)
  | _ => []

theorem mem_writes_of_flag? {b : Bool} (h : m.flag? = some b) : 0xF ∈ m.writes := by
  rw [flag?] at h
  split at h <;> simp_all [writes]

variable [ByteSource ρ]

theorem mem_writes_of_result? {b : UInt8} (h : m.result? = some b) : m.cpu.word.x ∈ m.writes := by
  rw [result?] at h
  split at h
  all_goals simp_all [writes]
  · obtain ⟨k, hk, -⟩ := h
    simp [hk]

/-- A register that the instruction does not write keeps its value. -/
theorem registerAfter_of_not_mem_writes {r : Nat} (h : r ∉ m.writes) (old : UInt8) :
    m.registerAfter r old = old := by
  have hflag :
      (if r = 0xF then m.flag?.map fun b => if b then (1 : UInt8) else 0 else none) = none := by
    rw [ite_eq_right_iff]
    rintro rfl
    cases hf : m.flag? with
    | none => rfl
    | some b => exact absurd (mem_writes_of_flag? hf) h
  have hresult : (if r = m.cpu.word.x then m.result? else none) = none := by
    rw [ite_eq_right_iff]
    rintro rfl
    cases hr : m.result? with
    | none => rfl
    | some b => exact absurd (mem_writes_of_result? hr) h
  have hload : ¬(m.instruction? = some .load ∧ r ≤ m.cpu.word.x) := by
    rintro ⟨hi, hle⟩
    refine h ?_
    rw [writes, hi]
    exact List.mem_range.mpr (Nat.lt_succ_of_le hle)
  simp only [registerAfter, hflag, hresult, if_neg hload]
  rfl

/-! ### The parts of the machine -/

variable [Sounder β] [Display δ]

theorem reg_completed {r : Nat} (h : r < m.cpu.registers.size) :
    m.completed.cpu.reg r = m.registerAfter r (m.cpu.reg r) := by
  have hr : m.completed.cpu.registers = m.cpu.registers.mapIdx m.registerAfter := by
    rw [completed, record_cpu]
    rfl
  rw [reg, hr]
  exact getD_mapIdx h m.registerAfter 0

/-- The processor as the instruction leaves it, with the timers run down and the cycle counted. -/
theorem cpu_completed :
    m.completed.cpu = { m.cpuAfter with
      delay := max 0 (m.delaySet - 1), sound := max 0 (m.soundSet - 1),
      cycles := m.cpu.cycles + 1 } := by
  rw [completed, record_cpu]
  rfl

theorem pc_completed : m.completed.cpu.pc = m.pcAfter := by
  rw [cpu_completed]
  rfl

/-- A register that an instruction puts its result into, without a flag. -/
theorem reg_completed_of_result {b : UInt8} (h : m.cpu.Intact) (hr : m.result? = some b)
    (hf : m.flag? = none) : m.completed.cpu.reg m.cpu.word.x = b := by
  rw [reg_completed (h.x_lt _)]
  simp [registerAfter, hr, hf]

theorem delay_completed : m.completed.cpu.delay = max 0 (m.delaySet - 1) := by
  rw [cpu_completed]

theorem sound_completed : m.completed.cpu.sound = max 0 (m.soundSet - 1) := by
  rw [cpu_completed]

theorem completed_eq : m.completed = { m.settled.countCycle with trace := m.completed.trace } :=
  record_eq _ _ _

theorem sounder_completed : m.completed.sounder = m.sounderAfter := by
  rw [completed_eq]
  rfl

theorem video_completed : m.completed.video = m.videoAfter := by
  rw [completed_eq]
  rfl

theorem bytes_completed : m.completed.bytes = m.bytesAfter := by
  rw [completed_eq]
  rfl

/-! ### Waiting for a key -/

/-- The lowest key that was let go goes into `Vx`, and the machine goes on. -/
theorem completed_of_letGo {k : Key} (h : m.cpu.Intact) (hi : m.instruction? = some .waitKey)
    (hk : m.letGo? = some k) :
    (m.completed.cpu.reg m.cpu.word.x).toNat = k ∧ m.completed.cpu.pc = m.cpu.pc + 2 := by
  have hlt : (k : Nat) < 16 := k.isLt
  constructor
  · rw [reg_completed_of_result h (by rw [result?, hi, hk]; rfl) (by rw [flag?, hi]),
      UInt8.toNat_ofNat']
    omega
  · rw [pc_completed, pcAfter, hi, hk]
    rfl

/-- Without such a key the registers stay as they are, and the machine where it is. -/
theorem completed_of_not_letGo (hi : m.instruction? = some .waitKey) (hk : m.letGo? = none) :
    m.completed.cpu.registers = m.cpu.registers ∧ m.completed.cpu.pc = m.cpu.pc := by
  constructor
  · have hnone := registers_of_none (m := m) (by rw [result?, hi, hk]; rfl) (by rw [flag?, hi])
      (by simp [hi])
    rw [cpu_completed]
    exact hnone
  · rw [pc_completed, pcAfter, hi, hk]
    rfl

/-! ### The whole cycle -/

/-- The machine after a cycle that does not fail. It found an instruction, all bytes that it worked
on were in memory, and each part of the machine is as its definition says. A register that was not
written is as before, and so is a pixel that no sprite was drawn over. What `FX33` stores are the
decimal digits of `Vx`, and what `FX0A` waits for is the lowest key that was let go. -/
theorem effects_of_completed_cycle (h : m.cpu.Intact) (he : cycle m = .ok () m') :
    (∃ i, m.instruction? = some i ∧
      m.cpu.word.family = i.family ∧ m.cpu.word.EndsWith i.ending) ∧
    (∀ n, m.extent? = some n → m.cpu.index + n ≤ memorySize) ∧
    m' = ({ m with
      cpu :=
        { registers := m.cpu.registers.mapIdx m.registerAfter
          index := m.indexAfter
          pc := m.pcAfter
          stack := m.cpu.stack.mapIdx m.slotAfter
          sp := m.spAfter
          memory := m.cpu.memory.mapIdx m.byteAfter
          delay := max 0 (m.delaySet - 1)
          sound := max 0 (m.soundSet - 1)
          cycles := m.cpu.cycles + 1 }
      video := m.videoAfter
      sounder := m.sounderAfter
      bytes := m.bytesAfter } : Machine κ β δ ρ).record m.cpu m.cpu.word none ∧
    (∀ r < registerCount, r ∉ m.writes → m'.cpu.reg r = m.cpu.reg r) ∧
    (∀ c < screenWidth, ∀ r < screenHeight, m'.screen.pixel c r = m.pixelAfter c r) ∧
    (m.instruction? = some .decimal →
      ∃ hundreds tens ones : UInt8, m.stored = [hundreds, tens, ones] ∧
        hundreds.toNat ≤ 9 ∧ tens.toNat ≤ 9 ∧ ones.toNat ≤ 9 ∧
        100 * hundreds.toNat + 10 * tens.toNat + ones.toNat = m.vx.toNat) ∧
    (m.instruction? = some .waitKey →
      (∀ k, KeyInput.wasReleased m.keys k = true →
        (∀ j < k, KeyInput.wasReleased m.keys j = false) →
          (m'.cpu.reg m.cpu.word.x).toNat = k ∧ m'.cpu.pc = m.cpu.pc + 2) ∧
      ((∀ k, KeyInput.wasReleased m.keys k = false) →
        m'.cpu.registers = m.cpu.registers ∧ m'.cpu.pc = m.cpu.pc)) := by
  obtain ⟨hnone, rfl⟩ := (cycle_eq_ok_iff h).mp he
  have hpassed := firstFault?_eq_none_iff.mp hnone
  refine ⟨?_, ?_, rfl, ?_, ?_, ?_, ?_⟩
  · have hd := hpassed .decode
    cases hi : m.instruction? with
    | none => simp [faultAt?, hi] at hd
    | some i => exact ⟨i, rfl, Word.decode_eq_some_iff.mp hi⟩
  · intro n hn
    simpa [faultAt?_access hn] using hpassed .access
  · intro r hr hw
    rw [reg_completed (by rw [h.registers]; exact hr)]
    exact registerAfter_of_not_mem_writes hw _
  · intro c hc r hr
    rw [screen, video_completed]
    exact pixel_videoAfter hc hr
  · intro hi
    rw [stored, hi]
    exact Effect.decimalBytes_spec m.vx
  · intro hi
    constructor
    · intro k hk hlow
      exact completed_of_letGo h hi (Fin.find?_eq_some_iff.mpr ⟨hk, hlow⟩)
    · intro hk
      exact completed_of_not_letGo hi (Fin.find?_eq_none_iff.mpr hk)

/-- A machine that waits finds two keys that were let go, of which the lower one counts. -/
theorem effects_of_wait :
    ∃ m m' : Machine Keypad BeepCounter Recorder ByteLoop,
      m.cpu = Processor.powerOn.withProgram [0xF3, 0x0A] ∧
      m.keys = ⟨0, Keypad.only ⟨9, by decide⟩ ||| Keypad.only ⟨5, by decide⟩⟩ ∧
      cycle m = .ok () m' ∧ (m'.cpu.reg 3).toNat = 5 ∧ m'.cpu.reg 4 = 0 ∧ m'.cpu.pc = 0x202 ∧
      m'.cpu.cycles = 1 ∧ m'.screen.pixel 0 0 = false := by
  obtain ⟨m, hm⟩ : ∃ m : Machine Keypad BeepCounter Recorder ByteLoop, m =
      { powerOn ⟨0, Keypad.only ⟨9, by decide⟩ ||| Keypad.only ⟨5, by decide⟩⟩ .fresh .fresh
          ⟨#[], 0⟩ false (.withLimit none) with
        cpu := Processor.powerOn.withProgram [0xF3, 0x0A] } := ⟨_, rfl⟩
  have hcpu : m.cpu = Processor.powerOn.withProgram [0xF3, 0x0A] := by rw [hm]
  have h : m.cpu.Intact := hcpu ▸ intact_powerOn.withProgram (by decide)
  obtain ⟨hpassed, hi, hx, hk, hlow, hkept, hdark⟩ :
      m.firstFault? = none ∧ m.instruction? = some .waitKey ∧ m.cpu.word.x = 3 ∧
      KeyInput.wasReleased m.keys ⟨5, by decide⟩ = true ∧
      (∀ j < (⟨5, by decide⟩ : Key), KeyInput.wasReleased m.keys j = false) ∧
      4 ∉ m.writes ∧ m.pixelAfter 0 0 = false := by
    rw [hm]
    decide +kernel
  have he := (cycle_eq_ok_iff h).mpr ⟨hpassed, rfl⟩
  obtain ⟨-, -, hm', hkeep, hpixel, -, hwait⟩ := effects_of_completed_cycle h he
  obtain ⟨hreg, hpc⟩ := (hwait hi).1 _ hk hlow
  rw [hx] at hreg
  refine ⟨m, _, hcpu, by rw [hm]; rfl, he, hreg, ?_, ?_, ?_, ?_⟩
  · rw [hkeep 4 (by decide) hkept, hcpu]
    rfl
  · rw [hpc, hcpu]
    rfl
  · rw [hm', record_cpu, hcpu]
    rfl
  · rw [hpixel 0 (by decide) 0 (by decide), hdark]

end Machine

end Chip8
