import Chip8.Device

/-!
# The Mersenne twister

The usual 32-bit generator with 624 words of state. A seed is an integer of any size, of which the
magnitude counts, cut into words from the lowest to the highest.

A random byte is made of nine bits: the nine highest bits of an output are taken, and outputs that
give 256 or more are passed over.
-/

namespace Chip8

/-- The state of the generator: its words, and how many of them were used. -/
structure Twister where
  words : Array UInt32
  used : Nat
  deriving DecidableEq

namespace Twister

/-- The number of words of state. -/
def size : Nat := 624

/-- How far apart the words are that are mixed. -/
def distance : Nat := 397

/-- The word at a position. Positions beyond the end hold zero. -/
def wordAt (words : Array UInt32) (i : Nat) : UInt32 := words.getD i 0

/-! ## Seeding -/

/-- The words grown from one word, each from the one before. -/
def fromWord (seed : UInt32) : Array UInt32 :=
  (List.range (size - 1)).foldl (fun words i =>
    let w := wordAt words i
    words.push ((1812433253 : UInt32) * (w ^^^ (w >>> 30)) + UInt32.ofNat (i + 1))) #[seed]

/-- The words of a number, the lowest first and at least one. The first argument bounds their
number. -/
def wordsOf : Nat → Nat → List UInt32
  | 0, n => [UInt32.ofNat n]
  | k + 1, n => if n < 2 ^ 32 then [UInt32.ofNat n] else UInt32.ofNat n :: wordsOf k (n / 2 ^ 32)

/-- The position after `i`, where the first is taken to follow the last. The last word is copied
to the front then. -/
def advance (words : Array UInt32) (i : Nat) : Array UInt32 × Nat :=
  if size ≤ i + 1 then (words.setIfInBounds 0 (wordAt words (size - 1)), 1) else (words, i + 1)

/-- Mixes a word with the one before it, `mix` being applied to both. -/
def blend (factor : UInt32) (mix : UInt32 → UInt32) (words : Array UInt32) (i : Nat) :
    Array UInt32 :=
  let before := wordAt words (i - 1)
  words.setIfInBounds i (mix (wordAt words i ^^^ ((before ^^^ (before >>> 30)) * factor)))

/-- The first round of seeding: the words of the key are added in turn. -/
def addKey (key : Array UInt32) (words : Array UInt32) : Array UInt32 × Nat :=
  let (words, i, _) := (List.range (max size key.size)).foldl
    (fun (words, i, j) _ =>
      let words := blend 1664525 (· + wordAt key j + UInt32.ofNat j) words i
      let (words, i) := advance words i
      (words, i, if key.size ≤ j + 1 then 0 else j + 1))
    (words, 1, 0)
  (words, i)

/-- The second round of seeding: the positions are subtracted. -/
def subtractPositions (words : Array UInt32) (start : Nat) : Array UInt32 :=
  ((List.range (size - 1)).foldl
    (fun (words, i) _ =>
      advance (blend 1566083941 (· - UInt32.ofNat i) words i) i)
    (words, start)).1

/-- The generator for a seed. -/
def ofSeed (seed : Int) : Twister :=
  let n := seed.natAbs
  let key := (wordsOf (n.log2 / 32) n).toArray
  let (words, i) := addKey key (fromWord 19650218)
  ⟨(subtractPositions words i).setIfInBounds 0 0x80000000, size⟩

/-! ## Outputs -/

/-- The highest bit of one word and the other bits of the next, shifted and folded. -/
def twist (u v : UInt32) : UInt32 :=
  let y := (u &&& 0x80000000) ||| (v &&& 0x7FFFFFFF)
  (y >>> 1) ^^^ (if y &&& 1 = 1 then 0x9908B0DF else 0)

/-- The next words of state. -/
def regenerate (words : Array UInt32) : Array UInt32 :=
  (List.range size).foldl (fun words i =>
    let next := twist (wordAt words i) (wordAt words ((i + 1) % size))
    words.setIfInBounds i (wordAt words ((i + distance) % size) ^^^ next)) words

/-- Spreads the bits of a word over an output. -/
def temper (w : UInt32) : UInt32 :=
  let y := w ^^^ (w >>> 11)
  let y := y ^^^ ((y <<< 7) &&& 0x9D2C5680)
  let y := y ^^^ ((y <<< 15) &&& 0xEFC60000)
  y ^^^ (y >>> 18)

/-- The next output. -/
def next (t : Twister) : UInt32 × Twister :=
  if t.used < size then (temper (wordAt t.words t.used), { t with used := t.used + 1 })
  else
    let words := regenerate t.words
    (temper (wordAt words 0), ⟨words, 1⟩)

/-- The next byte within a number of outputs, and zero if none of them gives one. -/
def byteWithin : Nat → Twister → UInt8 × Twister
  | 0, t => (0, t)
  | k + 1, t =>
    let (w, t) := t.next
    let bits := w >>> 23
    if bits < 256 then (bits.toUInt8, t) else byteWithin k t

/-- The most outputs that are looked at for one byte: more than one in two gives a byte, so this
many without any do not occur. -/
def patience : Nat := 100 * size

/-- The next byte. -/
def byte (t : Twister) : UInt8 × Twister := byteWithin patience t

end Twister

instance : ByteSource Twister := ⟨Twister.byte⟩

end Chip8
