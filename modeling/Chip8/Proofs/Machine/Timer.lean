import Chip8.Proofs.Machine.Course

/-!
# Timers over many cycles

Both timers run down by one in each cycle, and stop at zero. The instructions that set them do so
before the tick of their own cycle, and the one that reads the delay timer does so before it as
well. So a timer that was set `d` cycles ago is read as the value it was set to less `d`, and the
tone, which sounds in the cycle in which the sound timer reaches zero, sounds in the cycle in which
it is set if it is set to one.

Cycle `k` of a course leads from machine `k` to the next one. What counts is the value of a timer in
a cycle between its instruction and its tick, `delaySet` and `soundSet`: from one cycle to the next
it falls by one, unless the instruction of the next sets it (`fallen_since`).

## Main results

* `Course.delaySet_since`, `Course.soundSet_since` — a timer since a given cycle
* `Course.soundSet_eq_one_iff` — the cycles in which the tone is due
* `timers_run_down` — what is read from the delay timer, and when the tone sounds
-/

namespace Chip8

/-! ### Falling values -/

/-- A value that falls by one from each number to the next, and stops at zero, has fallen by as many
as there are in between. -/
theorem fallen_since {v : Nat → Int} {a c : Nat} (h0 : 0 ≤ v a) (hac : a ≤ c)
    (hfall : ∀ k, a ≤ k → k < c → v (k + 1) = max 0 (v k - 1)) :
    v c = max 0 (v a - (c - a)) := by
  obtain ⟨d, rfl⟩ := Nat.exists_eq_add_of_le hac
  induction d with
  | zero =>
    rw [Nat.add_zero]
    omega
  | succ d ih =>
    have hlast := hfall (a + d) (Nat.le_add_right a d) (Nat.lt_succ_self (a + d))
    have hbefore := ih (Nat.le_add_right a d) fun k hk hkd => hfall k hk (Nat.lt_succ_of_lt hkd)
    rw [← Nat.add_assoc, hlast, hbefore]
    omega

/-- The last number up to `c` that has a property, if any has it. -/
theorem exists_last_or_none (P : Nat → Prop) (c : Nat) :
    (∃ a ≤ c, P a ∧ ∀ k, a < k → k ≤ c → ¬P k) ∨ ∀ k ≤ c, ¬P k := by
  induction c with
  | zero =>
    by_cases h0 : P 0
    · exact .inl ⟨0, Nat.le_refl 0, h0, fun k hk hk0 => absurd hk (Nat.not_lt.mpr hk0)⟩
    · exact .inr fun k hk => Nat.le_zero.mp hk ▸ h0
  | succ c ih =>
    by_cases hc : P (c + 1)
    · exact .inl ⟨c + 1, Nat.le_refl _, hc, fun k hk hkc => absurd hk (Nat.not_lt.mpr hkc)⟩
    · have hlast : ∀ k, k ≤ c + 1 → ¬k ≤ c → ¬P k := by
        intro k hk hkc
        obtain rfl : k = c + 1 := by omega
        exact hc
      rcases ih with ⟨a, hac, ha, hnone⟩ | hnone
      · refine .inl ⟨a, Nat.le_succ_of_le hac, ha, fun k hk hkc => ?_⟩
        by_cases hk' : k ≤ c
        · exact hnone k hk hk'
        · exact hlast k hkc hk'
      · refine .inr fun k hkc => ?_
        by_cases hk' : k ≤ c
        · exact hnone k hk'
        · exact hlast k hkc hk'

namespace Machine

open Processor

variable {κ β δ ρ : Type}

/-! ### Timers that are not set -/

section Kept

variable {m : Machine κ β δ ρ}

theorem delaySet_of_ne (h : m.instruction? ≠ some .setDelay) : m.delaySet = m.cpu.delay := by
  rw [delaySet]
  split
  · next hi => exact absurd hi h
  · rfl

theorem soundSet_of_ne (h : m.instruction? ≠ some .setSound) : m.soundSet = m.cpu.sound := by
  rw [soundSet]
  split
  · next hi => exact absurd hi h
  · rfl

theorem delaySet_of_setDelay (h : m.instruction? = some .setDelay) : m.delaySet = m.vx.toNat := by
  rw [delaySet, h]

theorem soundSet_of_setSound (h : m.instruction? = some .setSound) : m.soundSet = m.vx.toNat := by
  rw [soundSet, h]

end Kept

variable [KeyInput κ] [Sounder β] [Display δ] [ByteSource ρ]
variable {ms : Nat → Machine κ β δ ρ} {n a b c k : Nat}

/-! ### Timers over a course -/

theorem Course.delay_succ (hc : Course ms n) (h : (ms 0).cpu.Intact) (hk : k < n) :
    (ms (k + 1)).cpu.delay = max 0 ((ms k).delaySet - 1) := by
  obtain ⟨keys, -, he⟩ := hc.exists_completed h hk
  rw [← he, delay_completed]
  rfl

theorem Course.sound_succ (hc : Course ms n) (h : (ms 0).cpu.Intact) (hk : k < n) :
    (ms (k + 1)).cpu.sound = max 0 ((ms k).soundSet - 1) := by
  obtain ⟨keys, -, he⟩ := hc.exists_completed h hk
  rw [← he, sound_completed]
  rfl

/-- The delay timer since cycle `a`, if no later one sets it. -/
theorem Course.delaySet_since (hc : Course ms n) (h : (ms 0).cpu.Intact) (hac : a ≤ c) (hcn : c ≤ n)
    (hnone : ∀ k, a < k → k ≤ c → (ms k).instruction? ≠ some .setDelay) :
    (ms c).delaySet = max 0 ((ms a).delaySet - (c - a)) := by
  refine fallen_since (v := fun k => (ms k).delaySet)
    (delaySet_bounds (hc.intact h (Nat.le_trans hac hcn))).1 hac fun k hak hkc => ?_
  rw [delaySet_of_ne (hnone (k + 1) (Nat.lt_succ_of_le hak) hkc),
    hc.delay_succ h (Nat.lt_of_lt_of_le hkc hcn)]

/-- The sound timer since cycle `a`, if no later one sets it. -/
theorem Course.soundSet_since (hc : Course ms n) (h : (ms 0).cpu.Intact) (hac : a ≤ c) (hcn : c ≤ n)
    (hnone : ∀ k, a < k → k ≤ c → (ms k).instruction? ≠ some .setSound) :
    (ms c).soundSet = max 0 ((ms a).soundSet - (c - a)) := by
  refine fallen_since (v := fun k => (ms k).soundSet)
    (soundSet_bounds (hc.intact h (Nat.le_trans hac hcn))).1 hac fun k hak hkc => ?_
  rw [soundSet_of_ne (hnone (k + 1) (Nat.lt_succ_of_le hak) hkc),
    hc.sound_succ h (Nat.lt_of_lt_of_le hkc hcn)]

/-- What a cycle reads from the delay timer. -/
theorem Course.reg_of_readDelay (hc : Course ms n) (h : (ms 0).cpu.Intact) (hk : k < n)
    (hi : (ms k).instruction? = some .readDelay) :
    (((ms (k + 1)).cpu.reg (ms k).cpu.word.x).toNat : Int) = (ms k).delaySet := by
  obtain ⟨keys, -, he⟩ := hc.exists_completed h hk
  have hk' := hc.intact h (Nat.le_of_lt hk)
  have hd := hk'.delay
  have hreg : (ms (k + 1)).cpu.reg (ms k).cpu.word.x = UInt8.ofNat (ms k).cpu.delay.toNat := by
    have hi' : ((ms k).withKeys keys).instruction? = some .readDelay := hi
    rw [← he]
    exact reg_completed_of_result (m := (ms k).withKeys keys) hk' (by rw [result?, hi']; rfl)
      (by rw [flag?, hi'])
  have hne : (ms k).instruction? ≠ some .setDelay := by simp [hi]
  rw [hreg, delaySet_of_ne hne, UInt8.toNat_ofNat']
  omega

/-- The tone sounds in the cycles in which the sound timer reaches zero. -/
theorem Course.sounder_succ (hc : Course ms n) (h : (ms 0).cpu.Intact) (hk : k < n) :
    (ms (k + 1)).sounder =
      if (ms k).soundSet = 1 then (Sounder.beep (ms k).sounder).device else (ms k).sounder := by
  obtain ⟨keys, -, he⟩ := hc.exists_completed h hk
  rw [← he, sounder_completed]
  rfl

/-! ### The tone -/

/-- Whether the tone is due in cycle `c`: the sound timer was set so many cycles ago as it was set
to, counting both ends, or it was never set and ran at the beginning. -/
def ToneDue (ms : Nat → Machine κ β δ ρ) (c : Nat) : Prop :=
  (∃ a ≤ c, (ms a).instruction? = some .setSound ∧ 0 < (ms a).vx.toNat ∧
    c + 1 = a + (ms a).vx.toNat ∧
    ∀ k, a < k → k ≤ c → (ms k).instruction? ≠ some .setSound) ∨
  (0 < (ms 0).cpu.sound ∧ (c : Int) + 1 = (ms 0).cpu.sound ∧
    ∀ k ≤ c, (ms k).instruction? ≠ some .setSound)

theorem Course.soundSet_eq_one_iff (hc : Course ms n) (h : (ms 0).cpu.Intact) (hcn : c ≤ n) :
    (ms c).soundSet = 1 ↔ ToneDue ms c := by
  constructor
  · intro hone
    rcases exists_last_or_none (fun k => (ms k).instruction? = some .setSound) c with
      ⟨a, hac, ha, hnone⟩ | hnone
    · have hsince := hc.soundSet_since h hac hcn hnone
      rw [soundSet_of_setSound ha] at hsince
      exact .inl ⟨a, hac, ha, by omega, by omega, hnone⟩
    · have hsince := hc.soundSet_since h (Nat.zero_le c) hcn fun k _ hk => hnone k hk
      rw [soundSet_of_ne (hnone 0 (Nat.zero_le c))] at hsince
      exact .inr ⟨by omega, by omega, hnone⟩
  · rintro (⟨a, hac, ha, -, hdue, hnone⟩ | ⟨-, hdue, hnone⟩)
    · have hsince := hc.soundSet_since h hac hcn hnone
      rw [soundSet_of_setSound ha] at hsince
      omega
    · have hsince := hc.soundSet_since h (Nat.zero_le c) hcn fun k _ hk => hnone k hk
      rw [soundSet_of_ne (hnone 0 (Nat.zero_le c))] at hsince
      omega

/-- Timers run down over a course of cycles. What is read from the delay timer is what it was last
set to, less the number of cycles since then, or what it was at the beginning less the number of
cycles, and never less than zero. The tone sounds, once, in the cycles in which it is due, and in no
others. -/
theorem timers_run_down (h : (ms 0).cpu.Intact) (hc : Course ms n) :
    (∀ b < n, (ms b).instruction? = some .readDelay →
      (∀ a < b, (ms a).instruction? = some .setDelay →
        (∀ k, a < k → k < b → (ms k).instruction? ≠ some .setDelay) →
        (((ms (b + 1)).cpu.reg (ms b).cpu.word.x).toNat : Int) =
          max 0 (((ms a).vx.toNat : Int) - (b - a))) ∧
      ((∀ k < b, (ms k).instruction? ≠ some .setDelay) →
        (((ms (b + 1)).cpu.reg (ms b).cpu.word.x).toNat : Int) =
          max 0 ((ms 0).cpu.delay - b))) ∧
    (∀ c < n,
      (ToneDue ms c → (ms (c + 1)).sounder = (Sounder.beep (ms c).sounder).device) ∧
      (¬ToneDue ms c → (ms (c + 1)).sounder = (ms c).sounder)) := by
  refine ⟨fun b hb hread => ?_, fun c hcn => ?_⟩
  · have hreg := hc.reg_of_readDelay h hb hread
    -- The cycle that reads the timer does not set it.
    have hlast : ∀ k, k ≤ b → ¬k < b → (ms k).instruction? ≠ some .setDelay := by
      intro k hkb hk
      obtain rfl : k = b := by omega
      simp [hread]
    constructor
    · intro a hab ha hnone
      have hnone' : ∀ k, a < k → k ≤ b → (ms k).instruction? ≠ some .setDelay :=
        fun k hak hkb => if hk : k < b then hnone k hak hk else hlast k hkb hk
      rw [hreg, hc.delaySet_since h (Nat.le_of_lt hab) (Nat.le_of_lt hb) hnone',
        delaySet_of_setDelay ha]
    · intro hnone
      have hnone' : ∀ k, k ≤ b → (ms k).instruction? ≠ some .setDelay :=
        fun k hkb => if hk : k < b then hnone k hk else hlast k hkb hk
      rw [hreg, hc.delaySet_since h (Nat.zero_le b) (Nat.le_of_lt hb) fun k _ => hnone' k,
        delaySet_of_ne (hnone' 0 (Nat.zero_le b))]
      omega
  · have hsounder := hc.sounder_succ h hcn
    constructor
    · intro hdue
      rw [hsounder, if_pos ((hc.soundSet_eq_one_iff h (Nat.le_of_lt hcn)).mpr hdue)]
    · intro hdue
      rw [hsounder, if_neg (mt (hc.soundSet_eq_one_iff h (Nat.le_of_lt hcn)).mp hdue)]

/-- Both timers are set to three, the sound timer first. The delay timer is read in the cycle after
it was set, which is the third since the sound timer was, and the tone sounds in it. -/
theorem timers_run_down_from_three :
    ∃ ms : Nat → Machine NoKeys BeepCounter Recorder ByteLoop,
      ms 0 = headless (Processor.powerOn.withProgram
        [0x60, 0x03, 0xF0, 0x18, 0xF0, 0x15, 0xF1, 0x07]) ∧
      Course ms 4 ∧ ((ms 4).cpu.reg 1).toNat = 2 ∧
      (ms 3).sounder.count = 0 ∧ (ms 4).sounder.count = 1 := by
  have h : (Processor.powerOn.withProgram
      [0x60, 0x03, 0xF0, 0x18, 0xF0, 0x15, 0xF1, 0x07]).Intact :=
    intact_powerOn.withProgram (by decide)
  obtain ⟨m, hm⟩ : ∃ m, m = headless (Processor.powerOn.withProgram
    [0x60, 0x03, 0xF0, 0x18, 0xF0, 0x15, 0xF1, 0x07]) := ⟨_, rfl⟩
  obtain ⟨hok, hset, hdelay, hread, hsound, hvalue, hx, hcount⟩ :
      (∀ k < 4, (after (run k) m).firstFault? = none) ∧
      (∀ k < 4, (after (run k) m).instruction? = some .setSound ↔ k = 1) ∧
      (after (run 2) m).instruction? = some .setDelay ∧
      (after (run 3) m).instruction? = some .readDelay ∧
      (after (run 1) m).vx.toNat = 3 ∧ (after (run 2) m).vx.toNat = 3 ∧
      (after (run 3) m).cpu.word.x = 1 ∧ (after (run 3) m).sounder.count = 0 := by
    rw [hm]
    decide +kernel
  have hc := course_run (run_of_firstFault? (hm ▸ h) hok)
  obtain ⟨hreads, htone⟩ := timers_run_down (hm ▸ h) hc
  have hreg := (hreads 3 (by decide) hread).1 2 (by decide) hdelay
    fun k hk hk3 => absurd hk (by omega)
  have hdue : ToneDue (fun k => after (run k) m) 3 := by
    refine .inl ⟨1, by decide, (hset 1 (by decide)).mpr rfl, ?_, ?_, ?_⟩
    · rw [hsound]
      decide
    · rw [hsound]
    · intro k hk hk3 hi
      have := (hset k (by omega)).mp hi
      omega
  have hbeep := (htone 3 (by decide)).1 hdue
  refine ⟨_, hm, hc, ?_, hcount, ?_⟩
  · rw [hx, hvalue] at hreg
    exact Int.ofNat_inj.mp hreg
  · rw [hbeep]
    exact congrArg (· + 1) hcount

end Machine

end Chip8
