import Chip8.HandlerTable
import Chip8.Machine.Basic

/-!
# The handlers of the thirty-four instructions

A handler takes the word that was fetched and acts on the machine. The program counter is already
past the word.

`handlers` lists them by what they do: flow, skips, bytes, registers, memory, screen, keys and
timers. `standardTable` is the table a machine dispatches by. It is complete and frozen.
-/

namespace Chip8

namespace Machine

open Processor (Effect)

variable {κ β δ ρ : Type}

/-- What carries out an instruction. -/
abbrev Handler (κ β δ ρ : Type) := Word → Action κ β δ ρ Unit

/-- Carries out a word by a table. -/
def dispatch (t : HandlerTable (Handler κ β δ ρ)) (w : Word) : Action κ β δ ρ Unit := fun m =>
  match t.handlerOf? w with
  | some h => h w m
  | none => .error (.noHandler w.decode) m

/-- `Vx :=` a random byte and `nn`. -/
def random [ByteSource ρ] : Handler κ β δ ρ := fun w => do
  let b ← randomByte
  onCpu (Effect.put w.x (b &&& UInt8.ofNat w.nn))

/-- Draws the `n` bytes at `I` at column `Vx`, row `Vy`. The place wraps around, the sprite does
not. `VF` tells whether it covered a lit pixel. -/
def draw [Display δ] : Handler κ β δ ρ := fun w => do
  let x ← onCpu (Effect.get w.x)
  let y ← onCpu (Effect.get w.y)
  let sprite ← onCpu (Effect.fromIndex w.n)
  let hit ← onVideo (Video.draw (x.toNat % screenWidth) (y.toNat % screenHeight)
    (sprite.map (·.toNat)))
  onCpu (Effect.put 0xF (Effect.flag hit))

/-- The key in the low digit of a byte. -/
def keyOf (b : UInt8) : Key := ⟨b.toNat % keyCount, Nat.mod_lt _ (by decide)⟩

/-- Skips the next instruction if key `Vx` is down, or up, as asked. -/
def skipOnKey [KeyInput κ] (down : Bool) : Handler κ β δ ρ := fun w => do
  let b ← onCpu (Effect.get w.x)
  let m ← get
  onCpu (Effect.skipIf (KeyInput.isDown m.keys (keyOf b) == down))

/-- The lowest key that was let go in this input frame. -/
def releasedKey? [KeyInput κ] (keys : κ) : Option Key :=
  (List.finRange keyCount).find? (KeyInput.wasReleased keys)

/-- Puts the lowest released key into `Vx`. Without any, goes back to the same instruction. -/
def waitKey [KeyInput κ] : Handler κ β δ ρ := fun w => do
  let m ← get
  match releasedKey? m.keys with
  | some k => onCpu (Effect.put w.x (UInt8.ofNat k))
  | none => onCpu (Effect.movePc (-2))

/-- A skip that compares `Vx` with `nn`. -/
def skipByte (test : UInt8 → Nat → Bool) : Handler κ β δ ρ := fun w => onCpu do
  let a ← Effect.get w.x
  Effect.skipIf (test a w.nn)

/-- A skip that compares `Vx` with `Vy`. -/
def skipRegister (test : UInt8 → UInt8 → Bool) : Handler κ β δ ρ := fun w => onCpu do
  let a ← Effect.get w.x
  let b ← Effect.get w.y
  Effect.skipIf (test a b)

/-- `Vx := Vx + nn`. -/
def addByte : Handler κ β δ ρ := fun w => onCpu do
  let a ← Effect.get w.x
  Effect.put w.x (a + UInt8.ofNat w.nn)

variable [KeyInput κ] [Display δ] [ByteSource ρ]

/-- Instructions with their handlers, by what they do. -/
def handlers : List (Instruction × Handler κ β δ ρ) := [
  (.clear, fun _ => onVideo Video.clear),
  (.ret, fun _ => onCpu Effect.ret),
  (.jump, fun w => onCpu (Effect.jump w.nnn)),
  (.call, fun w => onCpu (Effect.call w.nnn)),
  (.jumpOffset, fun w => onCpu (Effect.jumpOffset w.nnn)),

  (.skipIfByte, skipByte fun a n => a.toNat == n),
  (.skipUnlessByte, skipByte fun a n => a.toNat != n),
  (.skipIfSame, skipRegister (· == ·)),
  (.skipUnlessSame, skipRegister (· != ·)),

  (.loadByte, fun w => onCpu (Effect.put w.x (UInt8.ofNat w.nn))),
  (.addByte, addByte),
  (.random, random),

  (.copy, fun w => onCpu (Effect.copy w.x w.y)),
  (.bitOr, fun w => onCpu (Effect.combine (· ||| ·) w.x w.y)),
  (.bitAnd, fun w => onCpu (Effect.combine (· &&& ·) w.x w.y)),
  (.bitXor, fun w => onCpu (Effect.combine (· ^^^ ·) w.x w.y)),
  (.add, fun w => onCpu (Effect.add w.x w.y)),
  (.sub, fun w => onCpu (Effect.sub w.x w.y)),
  (.shiftRight, fun w => onCpu (Effect.shiftRight w.x w.y)),
  (.subFrom, fun w => onCpu (Effect.subFrom w.x w.y)),
  (.shiftLeft, fun w => onCpu (Effect.shiftLeft w.x w.y)),

  (.loadIndex, fun w => onCpu (Effect.setIndex w.nnn)),
  (.addIndex, fun w => onCpu (Effect.addIndex w.x)),
  (.glyph, fun w => onCpu (Effect.glyph w.x)),
  (.decimal, fun w => onCpu (Effect.decimal w.x)),
  (.store, fun w => onCpu (Effect.store w.x)),
  (.load, fun w => onCpu (Effect.load w.x)),

  (.draw, draw),

  (.skipIfKey, skipOnKey true),
  (.skipUnlessKey, skipOnKey false),
  (.waitKey, waitKey),

  (.readDelay, fun w => onCpu (Effect.readDelay w.x)),
  (.setDelay, fun w => onCpu (Effect.setDelay w.x)),
  (.setSound, fun w => onCpu (Effect.setSound w.x))]

/-- The table a machine dispatches by. -/
def standardTable : HandlerTable (Handler κ β δ ρ) := ⟨handlers, true⟩

/-- No instruction is listed twice. -/
theorem nodup_handlers : ((handlers (κ := κ) (β := β) (δ := δ) (ρ := ρ)).map (·.1)).Nodup := by
  simp [handlers]

/-- Filling an empty table with the handlers gives the entries of the standard table. -/
theorem registerAll_handlers :
    HandlerTable.registerAll (handlers (κ := κ) (β := β) (δ := δ) (ρ := ρ)) .empty =
      .ok () ⟨handlers, false⟩ := by
  simpa [HandlerTable.empty] using
    HandlerTable.registerAll_eq_ok (t := .empty) rfl
      (by simpa [HandlerTable.empty] using nodup_handlers)

/-- Every instruction has a handler. -/
theorem isSome_handler_standardTable (i : Instruction) :
    ((standardTable (κ := κ) (β := β) (δ := δ) (ρ := ρ)).handler? i).isSome := by
  cases i <;> rfl

/-- Carries out a word. -/
def execute (w : Word) : Action κ β δ ρ Unit := dispatch standardTable w

end Machine

end Chip8
