import Chip8.Proofs.Processor.Intact

/-!
# Effects as equations

What each effect on a processor makes of it, as one equation. The hypotheses ask for the parts
that the effect works on: registers by number, slots of the stack, bytes of memory.

Effects that fail do so before they change anything. The equations for `call`, `ret` and the
accesses to memory show it: the processor beside the fault is the one they started from.
-/

namespace Chip8

variable {ε σ α β : Type}

/-- A step that works is followed by the next one. -/
theorem bind_ok {x : EStateM ε σ α} {f : α → EStateM ε σ β} {s s' : σ} {a : α}
    (h : x s = .ok a s') : (x >>= f) s = f a s' := by
  simp only [bind, EStateM.bind, h]

/-- A step that fails is the last one. -/
theorem bind_error {x : EStateM ε σ α} {f : α → EStateM ε σ β} {s s' : σ} {e : ε}
    (h : x s = .error e s') : (x >>= f) s = .error e s' := by
  simp only [bind, EStateM.bind, h]

namespace Processor

namespace Effect

variable {p : Processor} {r x y : Nat}

theorem get_eq (h : r < p.registers.size) : get r p = .ok (p.reg r) p := by
  simp [get, reg, h]

theorem put_eq (h : r < p.registers.size) (b : UInt8) :
    put r b p = .ok () { p with registers := p.registers.setIfInBounds r b } := by
  rw [put, dif_pos h, Array.setIfInBounds_def, dif_pos h]

/-- A skip moves the program counter exactly when its condition holds. -/
theorem skipIf_eq (c : Bool) (h : 0 ≤ p.pc ∧ p.pc ≤ 0x1000) :
    skipIf c p = .ok () { p with pc := if c then p.pc + 2 else p.pc } := by
  cases c with
  | false => rfl
  | true =>
    change EStateM.Result.ok () { p with pc := (p.pc + 2) % 0x10000 } = _
    rw [Int.emod_eq_of_lt (by omega) (by omega)]
    rfl

/-! ### Registers -/

theorem combine_eq (f : UInt8 → UInt8 → UInt8) (hx : x < p.registers.size)
    (hy : y < p.registers.size) :
    combine f x y p =
      .ok () { p with registers := p.registers.setIfInBounds x (f (p.reg x) (p.reg y)) } := by
  rw [combine, bind_ok (get_eq hx), bind_ok (get_eq hy), put_eq hx]

theorem copy_eq (hx : x < p.registers.size) (hy : y < p.registers.size) :
    copy x y p = .ok () { p with registers := p.registers.setIfInBounds x (p.reg y) } := by
  rw [copy, bind_ok (get_eq hy), put_eq hx]

/-- Two writes in a row, of which the second wins. -/
theorem put_put_eq (hx : x < p.registers.size) (hy : y < p.registers.size) (a b : UInt8) :
    (do put x a; put y b) p =
      .ok () { p with registers := (p.registers.setIfInBounds x a).setIfInBounds y b } := by
  rw [bind_ok (put_eq hx a), put_eq (by simpa using hy)]

theorem combineFlag_eq (f : UInt8 → UInt8 → UInt8) (g : UInt8 → UInt8 → Bool)
    (hx : x < p.registers.size) (hy : y < p.registers.size) (hf : 0xF < p.registers.size) :
    combineFlag f g x y p =
      .ok () { p with
        registers := (p.registers.setIfInBounds x (f (p.reg x) (p.reg y))).setIfInBounds 0xF
          (flag (g (p.reg x) (p.reg y))) } := by
  rw [combineFlag, bind_ok (get_eq hx), bind_ok (get_eq hy), put_put_eq hx hf]

theorem shift_eq (f : UInt8 → UInt8) (bit : UInt8 → Bool) (hx : x < p.registers.size)
    (hy : y < p.registers.size) (hf : 0xF < p.registers.size) :
    shift f bit x y p =
      .ok () { p with
        registers := (p.registers.setIfInBounds x (f (p.reg y))).setIfInBounds 0xF
          (flag (bit (p.reg y))) } := by
  rw [shift, bind_ok (get_eq hy), put_put_eq hx hf]

theorem readDelay_eq (hx : x < p.registers.size) (hd : 0 ≤ p.delay ∧ p.delay ≤ 0xFF) :
    readDelay x p =
      .ok () { p with registers := p.registers.setIfInBounds x (UInt8.ofNat p.delay.toNat) } := by
  have hg : (EStateM.get : Effect Processor) p = .ok p p := rfl
  have hb : isByte p.delay = true := by simpa [isByte] using hd
  rw [readDelay, bind_ok hg, if_pos hb, put_eq hx]

/-! ### The stack -/

theorem isWithinReach_of_mem {n : Int} (h : 0 ≤ n ∧ n ≤ stackDepth) : isWithinReach n = true := by
  have : (stackDepth : Int) = 16 := rfl
  simp only [isWithinReach, Bool.and_eq_true, decide_eq_true_eq]
  omega

theorem slotPlace?_eq {size : Nat} {n : Int} (h : 0 ≤ n ∧ n < size) :
    slotPlace? size n = some n.toNat := by
  have hn : ¬n < 0 := by omega
  simp [slotPlace?, hn, h]

theorem call_eq (hs : p.stack.size = stackDepth) (hp : 0 ≤ p.sp) (address : Nat) :
    call address p =
      if stackDepth ≤ p.sp then .error (.stackFull (p.pc - 2)) p
      else .ok () { p with
        stack := p.stack.setIfInBounds p.sp.toNat p.pc, sp := p.sp + 1, pc := address } := by
  rw [call]
  split
  · rfl
  · rw [isWithinReach_of_mem (by omega), slotPlace?_eq (by omega)]
    rfl

theorem ret_eq (hs : p.stack.size = stackDepth) (hp : 0 ≤ p.sp ∧ p.sp ≤ stackDepth) :
    ret p =
      if p.sp = 0 then .error (.stackEmpty (p.pc - 2)) p
      else .ok () { p with sp := p.sp - 1, pc := p.slot (p.sp - 1).toNat } := by
  rw [ret]
  split
  · rfl
  · have hlt : (p.sp - 1).toNat < p.stack.size := by omega
    have hreach : isWithinReach (p.sp - 1) = true := isWithinReach_of_mem (by omega)
    have hplace : slotPlace? p.stack.size (p.sp - 1) = some (p.sp - 1).toNat :=
      slotPlace?_eq (by omega)
    have hcell : p.stack[(p.sp - 1).toNat]? = some (p.slot (p.sp - 1).toNat) := by
      rw [slot, Array.getElem?_eq_getElem hlt, Option.getD_some]
    simp only [hreach, hplace, Option.bind_some, hcell, Bool.not_true, Bool.false_eq_true,
      if_false]

/-! ### Memory -/

theorem jumpOffset_eq (h : 0 < p.registers.size) {n : Nat} (hn : n < 0x1000) :
    jumpOffset n p = .ok () { p with pc := (p.reg 0).toNat + n } := by
  have := (p.reg 0).toNat_lt
  rw [jumpOffset, bind_ok (get_eq h), Int.emod_eq_of_lt (by omega) (by omega)]
  rfl

/-- The decimal digits of a byte are bytes themselves. -/
def decimalBytes (b : UInt8) : List UInt8 :=
  [UInt8.ofNat (b.toNat / 100), UInt8.ofNat (b.toNat / 10 % 10), UInt8.ofNat (b.toNat % 10)]

/-- The three digits of a byte, and that they are its digits. -/
theorem decimalBytes_spec (b : UInt8) :
    ∃ hundreds tens ones : UInt8, decimalBytes b = [hundreds, tens, ones] ∧
      hundreds.toNat ≤ 9 ∧ tens.toNat ≤ 9 ∧ ones.toNat ≤ 9 ∧
      100 * hundreds.toNat + 10 * tens.toNat + ones.toNat = b.toNat := by
  have hb := b.toNat_lt
  refine ⟨_, _, _, rfl, ?_⟩
  simp only [UInt8.toNat_ofNat']
  omega

theorem decimalDigits_eq (b : UInt8) :
    decimalDigits b = (decimalBytes b).map fun d => (d.toNat : Int) := by
  have hb := b.toNat_lt
  have key : ∀ n ≤ b.toNat, ((UInt8.ofNat n).toNat : Int) = n := by
    intro n hn
    rw [UInt8.toNat_ofNat', Nat.mod_eq_of_lt (by omega)]
  simp only [decimalDigits, decimalBytes, List.map_cons, List.map_nil]
  rw [key _ (by omega), key _ (by omega), key _ (by omega)]
  rfl

/-- Storing bytes at `I` fails or writes all of them. -/
theorem ofExcept_write_eq (hi : 0 ≤ p.index) (bytes : List UInt8) :
    ofExcept (fun p => p.write p.index (bytes.map fun b => (b.toNat : Int))) p =
      if memorySize < p.index + bytes.length then
        .error (.outsideMemory (max p.index memorySize)) p
      else .ok () { p with memory := overwrite p.memory p.index.toNat bytes } := by
  rw [ofExcept, write_eq p hi]
  by_cases h : (memorySize : Int) < p.index + bytes.length
  · rw [if_pos h, if_pos h]
  · rw [if_neg h, if_neg h]

theorem decimal_eq (hx : x < p.registers.size) (hi : 0 ≤ p.index) :
    decimal x p =
      if memorySize < p.index + 3 then .error (.outsideMemory (max p.index memorySize)) p
      else .ok () { p with
        memory := overwrite p.memory p.index.toNat (decimalBytes (p.reg x)) } := by
  rw [decimal, bind_ok (get_eq hx), decimalDigits_eq, ofExcept_write_eq hi]
  rfl

/-- The first registers as a list. -/
theorem take_registers (h : x < p.registers.size) :
    p.registers.toList.take (x + 1) = (List.range (x + 1)).map p.reg := by
  apply List.ext_getElem
  · simp only [List.length_take, Array.length_toList, List.length_map, List.length_range]
    omega
  · intro k hk _
    have hk' : k < p.registers.size := by
      simp only [List.length_take, Array.length_toList] at hk
      omega
    simp [reg, hk']

theorem store_eq (hx : x < p.registers.size) (hi : 0 ≤ p.index) :
    store x p =
      if memorySize < p.index + (x + 1 : Nat) then
        .error (.outsideMemory (max p.index memorySize)) p
      else .ok () { p with
        memory := overwrite p.memory p.index.toNat ((List.range (x + 1)).map p.reg) } := by
  have h := ofExcept_write_eq (p := p) hi ((List.range (x + 1)).map p.reg)
  rw [List.length_map, List.length_range] at h
  rw [← h, store, ofExcept, ofExcept, take_registers hx]

theorem fromIndex_eq (hm : p.memory.size = memorySize) (hi : 0 ≤ p.index) (n : Nat) :
    fromIndex n p =
      if memorySize < p.index + n then .error (.outsideMemory (max p.index memorySize)) p
      else .ok (p.bytesAt p.index.toNat n) p := by
  rw [fromIndex, ask, read_eq hm hi]
  by_cases h : (memorySize : Int) < p.index + n
  · rw [if_pos h, if_pos h]
  · rw [if_neg h, if_neg h]

/-- Loading bytes from `I` fails or replaces the first registers. -/
theorem load_eq (hm : p.memory.size = memorySize) (hx : x < p.registers.size)
    (hi : 0 ≤ p.index) :
    load x p =
      if memorySize < p.index + (x + 1 : Nat) then
        .error (.outsideMemory (max p.index memorySize)) p
      else .ok () { p with registers := p.registers.mapIdx fun r old =>
        if r ≤ x then p.byte (p.index.toNat + r) else old } := by
  have hf := fromIndex_eq hm hi (x + 1)
  rw [fromIndex] at hf
  rw [load]
  by_cases h : (memorySize : Int) < p.index + (x + 1 : Nat)
  · rw [if_pos h] at hf ⊢
    exact bind_error hf
  · rw [if_neg h] at hf ⊢
    rw [show ((x : Int) + 1) = ((x + 1 : Nat) : Int) from rfl, bind_ok hf]
    change EStateM.Result.ok () { p with registers := _ } = _
    congr 2
    apply Array.ext
    · simp only [Array.size_append, List.size_toArray, length_bytesAt, Array.size_extract,
        Array.size_mapIdx]
      omega
    · intro r hr _
      have hr' : r < p.registers.size := by
        simp only [Array.size_append, List.size_toArray, length_bytesAt, Array.size_extract] at hr
        omega
      rw [Array.getElem_append, Array.getElem_mapIdx]
      by_cases hle : r ≤ x
      · have hlt : r < x + 1 := by omega
        simp [bytesAt, hle, hlt]
      · have hge : ¬r < x + 1 := by omega
        simp only [List.size_toArray, length_bytesAt, hge, dite_false, Array.getElem_extract, hle,
          if_false]
        congr 1
        omega

end Effect

end Processor

end Chip8
