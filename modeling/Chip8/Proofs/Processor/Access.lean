import Chip8.Machine.Cycle

/-!
# Accesses, cell by cell

Registers, memory and stack are arrays, and the machine works on whole runs of their cells at a
time. Here every access is described by what it does to a single cell, which is the view in which
everything else about the machine is stated.

## Total views

`reg`, `byte` and `slot` give a cell for every number, and zero where there is none. Whether there
is one is a hypothesis of the theorems, never part of these definitions.

## Main results

* `overwrite_eq_mapIdx` — writing a run of bytes, as a change of each byte
* `read_eq`, `write_eq` — a checked access goes through exactly when all its bytes are in memory
* `fetch_eq` — the same for the word at the program counter
-/

namespace Chip8

namespace Processor

variable {p : Processor}

/-- The register with a given number. -/
def reg (p : Processor) (r : Nat) : UInt8 := p.registers[r]?.getD 0

/-- The byte at an address. -/
def byte (p : Processor) (a : Nat) : UInt8 := p.memory[a]?.getD 0

/-- The return address in a slot. -/
def slot (p : Processor) (s : Nat) : Int := p.stack[s]?.getD 0

/-- The bytes of `n` addresses from `a` on. -/
def bytesAt (p : Processor) (a n : Nat) : List UInt8 :=
  (List.range n).map fun k => p.byte (a + k)

/-- The word whose first byte is at the program counter. -/
def word (p : Processor) : Word :=
  ⟨256 * (p.byte p.pc.toNat).toNat + (p.byte (p.pc.toNat + 1)).toNat⟩

@[simp] theorem length_bytesAt (p : Processor) (a n : Nat) : (p.bytesAt a n).length = n := by
  simp [bytesAt]

/-! ### Changing cells -/

/-- Setting one cell is a change of each cell. -/
theorem setIfInBounds_eq_mapIdx {α : Type} (cells : Array α) (k : Nat) (x : α) :
    cells.setIfInBounds k x = cells.mapIdx fun j old => if j = k then x else old := by
  apply Array.ext
  · simp
  · intro j hj _
    have hj' : j < cells.size := by simpa using hj
    rw [Array.getElem_setIfInBounds hj', Array.getElem_mapIdx]
    simp only [eq_comm]

/-- Changing nothing. -/
theorem mapIdx_keep {α : Type} (cells : Array α) : cells.mapIdx (fun _ old => old) = cells := by
  apply Array.ext <;> simp

/-- Setting a cell after every cell was changed. -/
theorem setIfInBounds_mapIdx {α : Type} (cells : Array α) (f : Nat → α → α) (k : Nat) (x : α) :
    (cells.mapIdx f).setIfInBounds k x =
      cells.mapIdx fun j old => if j = k then x else f j old := by
  rw [setIfInBounds_eq_mapIdx, Array.mapIdx_mapIdx]
  rfl

/-- A cell after every cell was changed. -/
theorem getD_mapIdx {α : Type} {cells : Array α} {k : Nat} (h : k < cells.size) (f : Nat → α → α)
    (x : α) : (cells.mapIdx f)[k]?.getD x = f k (cells[k]?.getD x) := by
  rw [Array.getElem?_mapIdx, Array.getElem?_eq_getElem h]
  rfl

/-- Bytes written within memory replace the bytes at their own addresses, and no others. -/
theorem overwrite_eq_mapIdx {memory : Array UInt8} {start : Nat} {bytes : List UInt8}
    (h : start + bytes.length ≤ memory.size) :
    overwrite memory start bytes =
      memory.mapIdx fun a old => if start ≤ a then bytes[a - start]?.getD old else old := by
  induction bytes generalizing memory start with
  | nil => simp [overwrite, mapIdx_keep]
  | cons b bs ih =>
    rw [List.length_cons] at h
    have hs : start < memory.size := by omega
    rw [overwrite, dif_pos hs, ih (by rw [Array.size_set]; omega)]
    apply Array.ext
    · simp
    · intro a ha _
      have ha' : a < memory.size := by simpa using ha
      rw [Array.getElem_mapIdx, Array.getElem_mapIdx, Array.getElem_set]
      rcases Nat.lt_trichotomy a start with hlt | rfl | hgt
      · rw [if_neg (by omega), if_neg (by omega), if_neg (by omega)]
      · rw [if_neg (by omega), if_pos rfl, if_pos (Nat.le_refl _)]
        simp
      · rw [if_pos (by omega), if_neg (by omega), if_pos (by omega),
          show a - start = a - (start + 1) + 1 by omega, List.getElem?_cons_succ]

theorem size_overwrite {memory : Array UInt8} {start : Nat} {bytes : List UInt8}
    (h : start + bytes.length ≤ memory.size) :
    (overwrite memory start bytes).size = memory.size := by
  rw [overwrite_eq_mapIdx h, Array.size_mapIdx]

/-! ### Checked accesses -/

/-- What an access outside memory reports: the first address of it that is outside. -/
theorem checkRange_eq {address : Int} (ha : 0 ≤ address) (length : Int) :
    checkRange address length =
      if memorySize < address + length then .error (.outsideMemory (max address memorySize))
      else .ok () := by
  rw [checkRange, if_neg (by omega)]

theorem read_eq (hm : p.memory.size = memorySize) {address : Int} (ha : 0 ≤ address) (n : Nat) :
    p.read address n =
      if memorySize < address + n then .error (.outsideMemory (max address memorySize))
      else .ok (p.bytesAt address.toNat n) := by
  rw [read, checkRange_eq ha]
  by_cases hout : memorySize < address + n
  · rw [if_pos hout, if_pos hout]
    rfl
  · rw [if_neg hout, if_neg hout]
    have hpos : position p.memory.size (address + n) = address.toNat + n := by
      rw [position, if_neg (by omega)]
      omega
    change Except.ok _ = Except.ok _
    rw [hpos]
    congr 1
    apply List.ext_getElem
    · simp only [Array.length_toList, Array.size_extract, length_bytesAt]
      omega
    · intro k hk _
      have hk' : address.toNat + k < p.memory.size := by
        simp only [Array.length_toList, Array.size_extract] at hk
        omega
      simp [bytesAt, byte, hk']

/-- Bytes are the numbers that are bytes. -/
theorem bytes?_toNat (bytes : List UInt8) :
    bytes? (bytes.map fun b => (b.toNat : Int)) = some bytes := by
  induction bytes with
  | nil => rfl
  | cons b bs ih =>
    have hb : (0 : Int) ≤ b.toNat ∧ (b.toNat : Int) < 256 := by
      have := b.toNat_lt
      omega
    rw [bytes?] at ih ⊢
    rw [List.map_cons, List.mapM_cons, if_pos hb, ih]
    simp

theorem write_eq (p : Processor) {address : Int} (ha : 0 ≤ address) (bytes : List UInt8) :
    p.write address (bytes.map fun b => (b.toNat : Int)) =
      if memorySize < address + bytes.length then
        .error (.outsideMemory (max address memorySize))
      else .ok { p with memory := overwrite p.memory address.toNat bytes } := by
  rw [write, checkRange_eq ha, bytes?_toNat, List.length_map]
  split <;> rfl

theorem ofBytes_pair (a b : UInt8) : Word.ofBytes [a, b] = ⟨256 * a.toNat + b.toNat⟩ := by
  simp only [Word.ofBytes, List.foldl_cons, List.foldl_nil, Word.mk.injEq]
  omega

/-- A word is fetched if both its bytes are in memory. -/
theorem fetch_eq (hm : p.memory.size = memorySize) (hp : 0 ≤ p.pc) :
    Machine.fetch p =
      if 4094 < p.pc then .error (.outsideMemory (max p.pc memorySize)) else .ok p.word := by
  have hr := read_eq hm hp 2
  rw [Machine.fetch, show ((2 : Nat) : Int) = 2 from rfl] at *
  rw [hr]
  have hi : (memorySize : Int) < p.pc + 2 ↔ 4094 < p.pc := by
    rw [memorySize]
    omega
  simp only [hi]
  split
  · rfl
  · change Except.ok (Word.ofBytes [p.byte (p.pc.toNat + 0), p.byte (p.pc.toNat + 1)]) = _
    rw [ofBytes_pair]
    rfl

end Processor

end Chip8
