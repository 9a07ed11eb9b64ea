import Mathlib.Data.List.Basic
import Chip8.Proofs.Processor.Access

/-!
# Reading what was written

Memory is written in runs, and a run may start anywhere: below zero, at the end of memory, or far
beyond it. What decides is whether all its addresses are in memory, and only then whether all its
numbers are bytes. A run that fails one of the two leaves every byte as it was.

After a run that passes both, any other run is read as if it were read twice, once from what was
written and once from the memory before: `getElem?_read_writeBytes` says for each address which of
the two counts. Nothing is assumed about how the runs lie to each other.

## Main definitions

* `Outside`, `reported` — runs that are not all in memory, and the address they are refused for
* `writing` — a write as the instructions make it, with what it leaves behind

## Main results

* `writing_of_outside`, `writing_of_no_byte`, `writing_of_bytes` — the three ends of a write
* `getElem?_read_writeBytes` — a byte that is read after a write
* `read_over_write` — the laws of reading and writing
-/

namespace Chip8

namespace Processor

open Effect

variable {p : Processor} {data : List Int}

/-- Whether a run of addresses is not all in memory. A run of none may start right behind the last
byte, and no further on. -/
def Outside (address : Int) (length : Nat) : Prop :=
  address < 0 ∨ memorySize < address + length

/-- The address for which a run is refused. Below zero it is the first one. -/
def reported (address : Int) : Int :=
  if address < 0 then address else max address memorySize

instance (address : Int) (length : Nat) : Decidable (Outside address length) :=
  inferInstanceAs (Decidable (_ ∨ _))

/-- A write, with the processor that is left behind if it fails. -/
def writing (address : Int) (data : List Int) : Effect Unit :=
  ofExcept fun p => p.write address data

/-- The processor with bytes in place of those from an address on. -/
def writeBytes (p : Processor) (a : Nat) (bytes : List UInt8) : Processor :=
  { p with memory := overwrite p.memory a bytes }

/-! ### Addresses and numbers -/

theorem checkRange_eq_ite (address : Int) (length : Nat) :
    checkRange address length =
      if Outside address length then .error (.outsideMemory (reported address)) else .ok () := by
  by_cases ha : address < 0
  · rw [checkRange, if_pos ha, if_pos (.inl ha), reported, if_pos ha]
  · have hout : Outside address length ↔ (memorySize : Int) < address + length := or_iff_right ha
    rw [checkRange_eq (by omega), reported, if_neg ha]
    simp only [hout]

/-- Numbers that all are bytes come from bytes. -/
theorem exists_bytes (h : ∀ v ∈ data, isByte v = true) :
    ∃ bytes : List UInt8, bytes.map (fun b => (b.toNat : Int)) = data := by
  refine ⟨data.map fun v => UInt8.ofNat v.toNat, ?_⟩
  rw [List.map_map]
  refine (List.map_congr_left fun v hv => ?_).trans (List.map_id data)
  have hv := h v hv
  simp only [isByte, Bool.and_eq_true, decide_eq_true_eq] at hv
  simp only [Function.comp_apply, UInt8.toNat_ofNat', id_eq]
  omega

/-- One number that is no byte is enough. -/
theorem bytes?_eq_none (h : ∃ v ∈ data, isByte v = false) : bytes? data = none := by
  obtain ⟨v, hv, hno⟩ := h
  simp only [isByte, Bool.and_eq_false_iff, decide_eq_false_iff_not] at hno
  induction data with
  | nil => cases hv
  | cons w ws ih =>
    rw [bytes?, List.mapM_cons]
    rcases List.mem_cons.mp hv with rfl | hv
    · rw [if_neg (by omega)]
      rfl
    · have hrest := ih hv
      rw [bytes?] at hrest
      rw [hrest]
      split <;> rfl

theorem isByte_toNat (b : UInt8) : isByte b.toNat = true := by
  have := b.toNat_lt
  simp only [isByte, Bool.and_eq_true, decide_eq_true_eq]
  omega

/-- Numbers come from bytes unless one of them is none. -/
theorem no_byte_or_bytes (data : List Int) :
    (∃ v ∈ data, isByte v = false) ∨
      ∃ bytes : List UInt8, bytes.map (fun b => (b.toNat : Int)) = data := by
  by_cases hall : data.all isByte = true
  · exact .inr (exists_bytes (List.all_eq_true.mp hall))
  · exact .inl (by simpa using hall)

/-! ### The ends of a write -/

section Writing

variable {address : Int} (p : Processor)

/-- A write that fails leaves the processor as it was. -/
theorem writing_eq (address : Int) (data : List Int) :
    writing address data p =
      match p.write address data with
      | .ok q => .ok () q
      | .error f => .error f p := rfl

theorem writing_of_outside (hout : Outside address data.length) :
    writing address data p = .error (.outsideMemory (reported address)) p := by
  have hw : p.write address data = .error (.outsideMemory (reported address)) := by
    rw [write, checkRange_eq_ite, if_pos hout]
    rfl
  rw [writing_eq, hw]

/-- The numbers are looked at once all addresses are known to be in memory. -/
theorem writing_of_no_byte (hin : ¬Outside address data.length)
    (hno : ∃ v ∈ data, isByte v = false) : writing address data p = .error .notBytes p := by
  have hw : p.write address data = .error .notBytes := by
    rw [write, checkRange_eq_ite, if_neg hin, bytes?_eq_none hno]
    rfl
  rw [writing_eq, hw]

theorem writing_of_bytes {bytes : List UInt8} (hin : ¬Outside address data.length)
    (hdata : bytes.map (fun b => (b.toNat : Int)) = data) :
    writing address data p = .ok () (p.writeBytes address.toNat bytes) := by
  have hw : p.write address data = .ok (p.writeBytes address.toNat bytes) := by
    rw [write, checkRange_eq_ite, if_neg hin, ← hdata, bytes?_toNat]
    rfl
  rw [writing_eq, hw]

end Writing

/-! ### Reading after a write -/

/-- A byte after a run was written: the one from the run if its address is in it, and else the old
one. -/
theorem byte_writeBytes {a x : Nat} {bytes : List UInt8} (hm : p.memory.size = memorySize)
    (hfit : a + bytes.length ≤ memorySize) (hx : x < memorySize) :
    (p.writeBytes a bytes).byte x = if a ≤ x then bytes[x - a]?.getD (p.byte x) else p.byte x := by
  rw [byte, writeBytes, overwrite_eq_mapIdx (by rw [hm]; exact hfit),
    getD_mapIdx (by rw [hm]; exact hx)]
  rfl

/-- What a write leaves behind is read as bytes that are new within the run and old elsewhere. -/
theorem read_writeBytes {a b n : Nat} {bytes : List UInt8} (hm : p.memory.size = memorySize)
    (hfit : a + bytes.length ≤ memorySize) (hin : b + n ≤ memorySize) :
    (p.writeBytes a bytes).read b n =
      .ok ((List.range n).map fun k =>
        if a ≤ b + k then bytes[b + k - a]?.getD (p.byte (b + k)) else p.byte (b + k)) := by
  have hsize : (p.writeBytes a bytes).memory.size = memorySize :=
    (size_overwrite (by rw [hm]; exact hfit)).trans hm
  rw [read_eq hsize (Int.natCast_nonneg b), if_neg (by omega), Int.toNat_natCast, bytesAt]
  congr 1
  refine List.map_congr_left fun k hk => ?_
  have hk := List.mem_range.mp hk
  exact byte_writeBytes hm hfit (by omega)

/-- What is read after a write, address by address. -/
theorem getElem?_read_writeBytes {a b n x : Nat} {bytes read : List UInt8}
    (hm : p.memory.size = memorySize) (hfit : a + bytes.length ≤ memorySize)
    (hr : (p.writeBytes a bytes).read b n = .ok read) (hin : b + n ≤ memorySize)
    (hb : b ≤ x) (hx : x < b + n) :
    read[x - b]? = if a ≤ x ∧ x < a + bytes.length then bytes[x - a]? else p.memory[x]? := by
  obtain rfl := Except.ok.inj (hr.symm.trans (read_writeBytes hm hfit hin))
  have hold : p.memory[x]? = some (p.byte x) := by
    have hlt : x < p.memory.size := by omega
    rw [byte, Array.getElem?_eq_getElem hlt, Option.getD_some]
  rw [List.getElem?_map, List.getElem?_range (by omega), Option.map_some,
    show b + (x - b) = x by omega, hold]
  by_cases hrun : a ≤ x ∧ x < a + bytes.length
  · rw [if_pos hrun, if_pos hrun.1, List.getElem?_eq_getElem (by omega), Option.getD_some]
  · rw [if_neg hrun]
    split
    · rw [List.getElem?_eq_none (by omega), Option.getD_none]
    · rfl

/-- The laws of reading and writing. A write is refused exactly if one of its addresses is outside
memory, and otherwise exactly if one of its numbers is no byte; then nothing has changed. A write
that is not refused changes memory alone, which keeps its size. What is read afterwards is at each
address the number that was written to it if there was one, and the old byte if not. -/
theorem read_over_write (hm : p.memory.size = memorySize) (address : Int) (data : List Int) :
    (∀ x q, writing address data p = .error (.outsideMemory x) q ↔
      Outside address data.length ∧ x = reported address ∧ q = p) ∧
    (∀ q, writing address data p = .error .notBytes q ↔
      ¬Outside address data.length ∧ (∃ v ∈ data, isByte v = false) ∧ q = p) ∧
    (¬Outside address data.length → (∀ v ∈ data, isByte v = true) →
      ∃ q, writing address data p = .ok () q ∧ q = { p with memory := q.memory } ∧
        q.memory.size = memorySize ∧
        ∀ b n : Nat, b + n ≤ memorySize → ∃ read, q.read b n = .ok read ∧ read.length = n ∧
          ∀ x, b ≤ x → x < b + n →
            read[x - b]?.map (fun c => (c.toNat : Int)) =
              if address ≤ x ∧ x < address + data.length then data[x - address.toNat]?
              else p.memory[x]?.map fun c => (c.toNat : Int)) := by
  refine ⟨fun x q => ?_, fun q => ?_, fun hin hdata => ?_⟩
  · by_cases hout : Outside address data.length
    · simp [writing_of_outside p hout, hout, eq_comm]
    · rcases no_byte_or_bytes data with hno | ⟨bytes, hbytes⟩
      · simp [writing_of_no_byte p hout hno, hout]
      · simp [writing_of_bytes p hout hbytes, hout]
  · by_cases hout : Outside address data.length
    · simp [writing_of_outside p hout, hout]
    · rcases no_byte_or_bytes data with hno | ⟨bytes, rfl⟩
      · rw [writing_of_no_byte p hout hno]
        simp only [hout, hno, not_false_eq_true, true_and]
        simp [eq_comm]
      · simp [writing_of_bytes p hout rfl, isByte_toNat]
  · obtain ⟨bytes, rfl⟩ := exists_bytes hdata
    rw [Outside, List.length_map, not_or] at hin
    have hfit : address.toNat + bytes.length ≤ memorySize := by omega
    refine ⟨_, writing_of_bytes p (by simpa [Outside] using hin) rfl, rfl,
      (size_overwrite (by rw [hm]; exact hfit)).trans hm, fun b n hb => ?_⟩
    have hr := read_writeBytes hm hfit hb
    refine ⟨_, hr, by rw [List.length_map, List.length_range], fun x hx hx' => ?_⟩
    rw [getElem?_read_writeBytes hm hfit hr hb hx hx', List.getElem?_map, List.length_map]
    have hrun : (address.toNat ≤ x ∧ x < address.toNat + bytes.length) ↔
        (address ≤ x ∧ (x : Int) < address + bytes.length) := by omega
    simp only [hrun]
    split <;> rfl

/-- Two bytes are written over the end of one glyph and the start of the next, and read with the one
before them. Numbers that are no bytes are not looked at if the run does not fit, and a run of none
fits behind the last byte. -/
theorem read_over_write_of_glyphs :
    (∃ q, writing 4 [0, 255] powerOn = .ok () q ∧ q.read 3 3 = .ok [0x90, 0, 255]) ∧
    writing 4095 [0, 256] powerOn = .error (.outsideMemory 4096) powerOn ∧
    writing 4094 [0, 256] powerOn = .error .notBytes powerOn ∧
    ∃ q, writing 4096 [] powerOn = .ok () q := by
  have hm : powerOn.memory.size = memorySize := by decide +kernel
  have hold : powerOn.memory[3]? = some 0x90 := by decide +kernel
  obtain ⟨q, hq, -, -, hread⟩ := (read_over_write hm 4 [0, 255]).2.2 (by decide) (by decide)
  obtain ⟨read, hr, hlength, hat⟩ := hread 3 3 (by decide)
  obtain ⟨a, b, c, rfl⟩ := List.length_eq_three.mp hlength
  have h3 := hat 3 (by decide) (by decide)
  have h4 := hat 4 (by decide) (by decide)
  have h5 := hat 5 (by decide) (by decide)
  simp [hold] at h3 h4 h5
  obtain rfl : a = 0x90 := UInt8.toNat_inj.mp (Int.ofNat_inj.mp h3)
  obtain rfl : b = 0 := UInt8.toNat_inj.mp h4
  obtain rfl : c = 255 := UInt8.toNat_inj.mp (Int.ofNat_inj.mp h5)
  refine ⟨⟨q, hq, hr⟩, ?_, ?_, ?_⟩
  · exact ((read_over_write hm 4095 [0, 256]).1 4096 powerOn).mpr ⟨by decide, by decide, rfl⟩
  · exact ((read_over_write hm 4094 [0, 256]).2.1 powerOn).mpr ⟨by decide, by decide, rfl⟩
  · obtain ⟨q, hq, -⟩ := (read_over_write hm 4096 []).2.2 (by decide) (by decide)
    exact ⟨q, hq⟩

end Processor

end Chip8
