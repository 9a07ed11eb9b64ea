import Chip8.Proofs.Processor.Effect
import Chip8.Proofs.Screen
import Mathlib.Data.Fin.Tuple.Basic

/-!
# What a cycle comes to

The handlers say how an instruction is carried out, one after the other. Here the same is said the
other way round: for each part of the machine, which instructions change it and to what. A part
that a definition below does not name keeps its value.

Everything is a function of the machine at the beginning of the cycle. In particular all operands
are old values, whatever the instruction writes and wherever its operands coincide. There are no
masks on the program counter either: while the processor is intact they have no effect, which is
part of what `perform_eq` says.

## Main definitions

* `Machine.instruction?` — the instruction at the program counter
* `Machine.obeyed` — the machine once it was carried out
* `Machine.settled` — and once the timers have run down
-/

namespace Chip8

namespace Machine

open Processor (Effect)

variable {κ β δ ρ : Type}

/-! ### Operands -/

/-- The instruction at the program counter. -/
def instruction? (m : Machine κ β δ ρ) : Option Instruction := m.cpu.word.decode

/-- The value of `Vx`. -/
def vx (m : Machine κ β δ ρ) : UInt8 := m.cpu.reg m.cpu.word.x

/-- The value of `Vy`. -/
def vy (m : Machine κ β δ ρ) : UInt8 := m.cpu.reg m.cpu.word.y

/-- The bytes of a sprite at `I`. -/
def sprite (m : Machine κ β δ ρ) : Sprite :=
  (m.cpu.bytesAt m.cpu.index.toNat m.cpu.word.n).map fun b => (b.toNat : Int)

/-- Whether the sprite, drawn where the instruction says, covers a pixel. -/
def covered (m : Machine κ β δ ρ) (c r : Nat) : Bool :=
  m.sprite.covers (m.vx.toNat % screenWidth) (m.vy.toNat % screenHeight) c r

/-- The key that `Vx` stands for, by its low digit. -/
def testedKey (m : Machine κ β δ ρ) : Key := ⟨m.vx.toNat % keyCount, Nat.mod_lt _ (by decide)⟩

/-- The lowest of the keys that were let go. -/
def letGo? [KeyInput κ] (m : Machine κ β δ ρ) : Option Key :=
  Fin.find? (KeyInput.wasReleased m.keys)

/-! ### Registers -/

/-- What goes into `Vx`. -/
def result? [KeyInput κ] [ByteSource ρ] (m : Machine κ β δ ρ) : Option UInt8 :=
  match m.instruction? with
  | some .loadByte => some (UInt8.ofNat m.cpu.word.nn)
  | some .addByte => some (m.vx + UInt8.ofNat m.cpu.word.nn)
  | some .random => some ((ByteSource.draw m.bytes).1 &&& UInt8.ofNat m.cpu.word.nn)
  | some .copy => some m.vy
  | some .bitOr => some (m.vx ||| m.vy)
  | some .bitAnd => some (m.vx &&& m.vy)
  | some .bitXor => some (m.vx ^^^ m.vy)
  | some .add => some (m.vx + m.vy)
  | some .sub => some (m.vx - m.vy)
  | some .subFrom => some (m.vy - m.vx)
  | some .shiftRight => some (m.vy >>> 1)
  | some .shiftLeft => some (m.vy <<< 1)
  | some .readDelay => some (UInt8.ofNat m.cpu.delay.toNat)
  | some .waitKey => m.letGo?.map fun k : Key => UInt8.ofNat k
  | _ => none

/-- What goes into `VF` as a flag. -/
def flag? (m : Machine κ β δ ρ) : Option Bool :=
  match m.instruction? with
  | some .add => some (0xFF < m.vx.toNat + m.vy.toNat)
  | some .sub => some (m.vy < m.vx)
  | some .subFrom => some (m.vx < m.vy)
  | some .shiftRight => some (m.vy.toNat % 2 = 1)
  | some .shiftLeft => some (0x80 ≤ m.vy.toNat)
  | some .draw =>
    some (∃ c < screenWidth, ∃ r < screenHeight, m.screen.pixel c r = true ∧ m.covered c r = true)
  | _ => none

/-- What a register with the value `old` has afterwards. A flag prevails over a result. -/
def registerAfter [KeyInput κ] [ByteSource ρ] (m : Machine κ β δ ρ) (r : Nat) (old : UInt8) :
    UInt8 :=
  let flag := if r = 0xF then m.flag?.map fun b => if b then 1 else 0 else none
  let result := if r = m.cpu.word.x then m.result? else none
  let loaded :=
    if m.instruction? = some .load ∧ r ≤ m.cpu.word.x then
      some (m.cpu.byte (m.cpu.index.toNat + r))
    else none
  (flag <|> result <|> loaded).getD old

/-- What the index register has afterwards. -/
def indexAfter (m : Machine κ β δ ρ) : Int :=
  match m.instruction? with
  | some .loadIndex => m.cpu.word.nnn
  | some .addIndex => (m.cpu.index + m.vx.toNat) % 0x10000
  | some .glyph => m.vx.toNat * 5
  | _ => m.cpu.index

/-! ### Memory -/

/-- The bytes that go into memory from `I` on. -/
def stored (m : Machine κ β δ ρ) : List UInt8 :=
  match m.instruction? with
  | some .decimal => Effect.decimalBytes m.vx
  | some .store => (List.range (m.cpu.word.x + 1)).map m.cpu.reg
  | _ => []

/-- What the byte at an address has afterwards. -/
def byteAfter (m : Machine κ β δ ρ) (a : Nat) (old : UInt8) : UInt8 :=
  if m.cpu.index.toNat ≤ a then m.stored[a - m.cpu.index.toNat]?.getD old else old

/-! ### Flow -/

/-- What a slot of the stack has afterwards. A call fills the first slot not in use. -/
def slotAfter (m : Machine κ β δ ρ) (s : Nat) (old : Int) : Int :=
  if s = m.cpu.sp.toNat ∧ m.instruction? = some .call then m.cpu.pc + 2 else old

/-- The number of slots in use afterwards. -/
def spAfter (m : Machine κ β δ ρ) : Int :=
  match m.instruction? with
  | some .call => m.cpu.sp + 1
  | some .ret => m.cpu.sp - 1
  | _ => m.cpu.sp

/-- Whether the next instruction is skipped. -/
def skips [KeyInput κ] (m : Machine κ β δ ρ) : Bool :=
  match m.instruction? with
  | some .skipIfByte => m.vx.toNat == m.cpu.word.nn
  | some .skipUnlessByte => m.vx.toNat != m.cpu.word.nn
  | some .skipIfSame => m.vx == m.vy
  | some .skipUnlessSame => m.vx != m.vy
  | some .skipIfKey => KeyInput.isDown m.keys m.testedKey
  | some .skipUnlessKey => !KeyInput.isDown m.keys m.testedKey
  | _ => false

/-- Where the machine goes. -/
def pcAfter [KeyInput κ] (m : Machine κ β δ ρ) : Int :=
  match m.instruction? with
  | some .jump => m.cpu.word.nnn
  | some .call => m.cpu.word.nnn
  | some .jumpOffset => (m.cpu.reg 0).toNat + m.cpu.word.nnn
  | some .ret => m.cpu.slot (m.cpu.sp - 1).toNat
  | some .waitKey => if m.letGo?.isSome then m.cpu.pc + 2 else m.cpu.pc
  | _ => if m.skips then m.cpu.pc + 4 else m.cpu.pc + 2

/-! ### Timers -/

/-- What the delay timer is set to before it runs down. -/
def delaySet (m : Machine κ β δ ρ) : Int :=
  match m.instruction? with
  | some .setDelay => m.vx.toNat
  | _ => m.cpu.delay

/-- What the sound timer is set to before it runs down. -/
def soundSet (m : Machine κ β δ ρ) : Int :=
  match m.instruction? with
  | some .setSound => m.vx.toNat
  | _ => m.cpu.sound

/-! ### Devices -/

/-- The screen that is presented. -/
def shown? (m : Machine κ β δ ρ) : Option Screen :=
  match m.instruction? with
  | some .clear => some .blank
  | some .draw =>
    some (m.screen.draw (m.vx.toNat % screenWidth) (m.vy.toNat % screenHeight) m.sprite)
  | _ => none

/-- Screen and display afterwards. -/
def videoAfter [Display δ] (m : Machine κ β δ ρ) : Video δ :=
  match m.shown? with
  | some s => ⟨s, (Display.present s m.display).device⟩
  | none => m.video

/-- Whether the pixel at column `c`, row `r` is lit afterwards. -/
def pixelAfter (m : Machine κ β δ ρ) (c r : Nat) : Bool :=
  match m.instruction? with
  | some .clear => false
  | some .draw => m.screen.pixel c r ^^ m.covered c r
  | _ => m.screen.pixel c r

/-- The source of random bytes afterwards. -/
def bytesAfter [ByteSource ρ] (m : Machine κ β δ ρ) : ρ :=
  match m.instruction? with
  | some .random => (ByteSource.draw m.bytes).2
  | _ => m.bytes

/-- The tone afterwards. It is sounded when the sound timer runs out. -/
def sounderAfter [Sounder β] (m : Machine κ β δ ρ) : β :=
  if m.soundSet = 1 then (Sounder.beep m.sounder).device else m.sounder

/-! ### The whole machine -/

/-- The machine with the program counter past the word it points to. -/
def past (m : Machine κ β δ ρ) : Machine κ β δ ρ :=
  { m with cpu := { m.cpu with pc := m.cpu.pc + 2 } }

/-- The processor once the instruction was carried out. -/
def cpuAfter [KeyInput κ] [ByteSource ρ] (m : Machine κ β δ ρ) : Processor where
  registers := m.cpu.registers.mapIdx m.registerAfter
  index := m.indexAfter
  pc := m.pcAfter
  stack := m.cpu.stack.mapIdx m.slotAfter
  sp := m.spAfter
  memory := m.cpu.memory.mapIdx m.byteAfter
  delay := m.delaySet
  sound := m.soundSet
  cycles := m.cpu.cycles

/-- The machine once the instruction was carried out. -/
def obeyed [KeyInput κ] [Display δ] [ByteSource ρ] (m : Machine κ β δ ρ) : Machine κ β δ ρ :=
  { m with cpu := m.cpuAfter, video := m.videoAfter, bytes := m.bytesAfter }

/-- The machine once the timers have run down as well. -/
def settled [KeyInput κ] [Sounder β] [Display δ] [ByteSource ρ] (m : Machine κ β δ ρ) :
    Machine κ β δ ρ :=
  { m.obeyed with
    cpu := { m.cpuAfter with delay := max 0 (m.delaySet - 1), sound := max 0 (m.soundSet - 1) }
    sounder := m.sounderAfter }

/-- A machine without hardware around a processor, which a number of fixed runs start from. -/
def headless (p : Processor) : Machine NoKeys BeepCounter Recorder ByteLoop :=
  { powerOn {} .fresh .fresh ⟨#[], 0⟩ false (.withLimit none) with cpu := p }

/-! ### Pixels -/

section Pixels

variable {m : Machine κ β δ ρ} {c r : Nat}

/-- A sprite collides if it covers a lit pixel. -/
theorem flag?_of_draw (h : m.instruction? = some .draw) :
    m.flag? = some
      (m.screen.collides (m.vx.toNat % screenWidth) (m.vy.toNat % screenHeight) m.sprite) := by
  rw [flag?, h, Option.some_inj, Bool.eq_iff_iff, decide_eq_true_eq, Screen.collides_iff]
  rfl

/-- The pixels of the screen that is presented. -/
theorem pixel_of_shown? {s : Screen} (h : m.shown? = some s) (hc : c < screenWidth)
    (hr : r < screenHeight) : s.pixel c r = m.pixelAfter c r := by
  rw [shown?] at h
  rw [pixelAfter]
  split at h
  · obtain rfl := Option.some_inj.mp h
    exact Screen.pixel_blank c r
  · obtain rfl := Option.some_inj.mp h
    exact m.screen.pixel_draw _ _ m.sprite hc hr
  · contradiction

/-- The pixels afterwards, whether a screen is presented or not. -/
theorem pixel_videoAfter [Display δ] (hc : c < screenWidth) (hr : r < screenHeight) :
    m.videoAfter.screen.pixel c r = m.pixelAfter c r := by
  rw [videoAfter]
  cases h : m.shown? with
  | some s => exact pixel_of_shown? h hc hr
  | none =>
    rw [shown?] at h
    rw [pixelAfter]
    split at h
    · contradiction
    · contradiction
    · rfl

end Pixels

/-! ### Bounds of the parts

Each part has the range that it has in an intact processor. -/

variable {m : Machine κ β δ ρ}

theorem past_intact (h : m.cpu.Intact) (hp : m.cpu.pc ≤ 4094) : m.past.cpu.Intact :=
  h.setPc (by have := h.pc.1; omega)

theorem delaySet_bounds (h : m.cpu.Intact) : 0 ≤ m.delaySet ∧ m.delaySet ≤ 0xFF := by
  have := m.vx.toNat_lt
  rw [delaySet]
  split
  · omega
  · exact h.delay

theorem soundSet_bounds (h : m.cpu.Intact) : 0 ≤ m.soundSet ∧ m.soundSet ≤ 0xFF := by
  have := m.vx.toNat_lt
  rw [soundSet]
  split
  · omega
  · exact h.sound

theorem indexAfter_bounds (h : m.cpu.Intact) : 0 ≤ m.indexAfter ∧ m.indexAfter ≤ 0xFFFF := by
  have hx := m.vx.toNat_lt
  have hn := m.cpu.word.nnn_lt
  rw [indexAfter]
  split
  · omega
  · omega
  · omega
  · exact h.index

theorem pcAfter_bounds [KeyInput κ] (h : m.cpu.Intact) (hp : m.cpu.pc ≤ 4094)
    (hs : m.instruction? = some .ret → m.cpu.sp ≠ 0) : 0 ≤ m.pcAfter ∧ m.pcAfter ≤ 0x10FE := by
  have hpc := h.pc
  have hn := m.cpu.word.nnn_lt
  have h0 := (m.cpu.reg 0).toNat_lt
  rw [pcAfter]
  split
  · omega
  · omega
  · omega
  · next hi =>
    have := h.slot_pred_sp (hs hi)
    have : (memorySize : Int) = 4096 := rfl
    omega
  · split <;> omega
  · split <;> omega

theorem spAfter_bounds (h : m.cpu.Intact) (hr : m.instruction? = some .ret → m.cpu.sp ≠ 0)
    (hc : m.instruction? = some .call → m.cpu.sp ≠ stackDepth) :
    0 ≤ m.spAfter ∧ m.spAfter ≤ stackDepth := by
  have hsp := h.sp
  rw [spAfter]
  split
  · next hi =>
    have := hc hi
    omega
  · next hi =>
    have := hr hi
    omega
  · exact hsp

theorem slotAfter_bounds (h : m.cpu.Intact) (hp : m.cpu.pc ≤ 4094) {s : Nat} (hs : s < stackDepth) :
    0 ≤ m.slotAfter s (m.cpu.slot s) ∧ m.slotAfter s (m.cpu.slot s) ≤ memorySize := by
  have hpc := h.pc
  have : (memorySize : Int) = 4096 := rfl
  rw [slotAfter]
  split
  · omega
  · exact h.slots s hs

end Machine

end Chip8
