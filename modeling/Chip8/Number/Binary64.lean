/-!
# Binary floating point

Numbers of the form `m · 2 ^ e` with a significand of 53 bits, in the usual 64-bit format. The
sums and products are those of the hardware. What is added here is what the hardware leaves open
or does not offer:

* not-a-number values keep their bits: an operation on one passes it on, the left one if there
  are two, and an operation without a value gives `Binary64.invalid`
* quotients of integers of any size, rounded once (`Binary64.ofRatio?`)
* exact comparisons with integers, and exact integer parts

Rounding is to the nearest, and of two equally near to the even one (`roundHalfEven`).
-/

namespace Chip8

/-- The integer nearest to `n / d`, and of two equally near the even one. -/
def roundHalfEven (n d : Nat) : Nat :=
  let q := n / d
  let r := n % d
  if 2 * r < d then q
  else if d < 2 * r then q + 1
  else q + q % 2

/-- Powers of two. -/
def twoPow (k : Nat) : Nat := 1 <<< k

/-- A number in the 64-bit format, given by its bits. -/
structure Binary64 where
  bits : UInt64
  deriving DecidableEq, Repr

namespace Binary64

/-- Zero. -/
def zero : Binary64 := ⟨0⟩

/-- The result of an operation that has no value. -/
def invalid : Binary64 := ⟨0xFFF8000000000000⟩

/-- Whether the sign is negative. -/
def isNegative (x : Binary64) : Bool := 0x8000000000000000 ≤ x.bits

/-- The bits without the sign. -/
def magnitude (x : Binary64) : Nat := x.bits.toNat % twoPow 63

/-- The magnitude of the infinite values. Finite values lie below it. -/
def infiniteMagnitude : Nat := 0x7FF0000000000000

/-- Whether this is no number. -/
def isNaN (x : Binary64) : Bool := infiniteMagnitude < x.magnitude

/-- Whether this is an infinite value. -/
def isInfinite (x : Binary64) : Bool := x.magnitude == infiniteMagnitude

/-- A not-a-number value as operations pass it on. -/
def passedOn (x : Binary64) : Binary64 := ⟨x.bits ||| 0x0008000000000000⟩

/-- The number with the bits of a native one. -/
def ofFloat (f : Float) : Binary64 :=
  if f.isNaN then invalid else ⟨f.toBits⟩

/-- A native operation with the bits of not-a-number values taken care of. -/
def lift (op : Float → Float → Float) (x y : Binary64) : Binary64 :=
  if x.isNaN then x.passedOn
  else if y.isNaN then y.passedOn
  else ofFloat (op (.ofBits x.bits) (.ofBits y.bits))

instance : Add Binary64 := ⟨lift (· + ·)⟩

instance : Sub Binary64 := ⟨lift (· - ·)⟩

instance : Mul Binary64 := ⟨lift (· * ·)⟩

instance : Div Binary64 := ⟨lift (· / ·)⟩

/-! ## From integers -/

/-- The greatest `k` with `2 ^ k ≤ n / d`, for positive `n` and `d`. -/
def log2Ratio (n d : Nat) : Int :=
  let k : Int := n.log2 - d.log2
  if n * twoPow (-k).toNat < d * twoPow k.toNat then k - 1 else k

/-- The bits of the number nearest to `n / d`, for positive `n` and `d`. -/
def magnitudeOfRatio (n d : Nat) : Nat :=
  let e := max (log2Ratio n d - 52) (-1074)
  let q := roundHalfEven (n * twoPow (-e).toNat) (d * twoPow e.toNat)
  (e + 1074).toNat * twoPow 52 + q

/-- The number nearest to `n / d`, or nothing if it is too large. There is none for `d = 0`. -/
def ofRatio? (n d : Int) : Option Binary64 :=
  if d = 0 then none
  else
    let sign : Nat := if (n < 0) != (d < 0) then twoPow 63 else 0
    let m := if n = 0 then 0 else magnitudeOfRatio n.natAbs d.natAbs
    if m < infiniteMagnitude then some ⟨UInt64.ofNat (sign + m)⟩ else none

/-- The number nearest to an integer, or nothing if it is too large. -/
def ofInt? (n : Int) : Option Binary64 := ofRatio? n 1

/-! ## To integers -/

/-- The significand and the exponent of a finite value's magnitude. -/
def parts (x : Binary64) : Nat × Int :=
  let e : Nat := x.magnitude / twoPow 52
  let m : Nat := x.magnitude % twoPow 52
  if e = 0 then (m, -1074) else (m + twoPow 52, (e : Int) - 1075)

/-- The magnitude of a finite value as a fraction of integers. -/
def ratio (x : Binary64) : Nat × Nat :=
  let (m, e) := x.parts
  (m * twoPow e.toNat, twoPow (-e).toNat)

/-- An integer with the sign of a number. -/
def withSign (x : Binary64) (n : Nat) : Int :=
  if x.isNegative then -(n : Int) else n

/-- The integer part of a finite value. -/
def truncate (x : Binary64) : Int :=
  let (n, d) := x.ratio
  x.withSign (n / d)

/-- The integer nearest to a finite value, and of two equally near the even one. -/
def round (x : Binary64) : Int :=
  let (n, d) := x.ratio
  x.withSign (roundHalfEven n d)

/-! ## Order -/

/-- Whether `x < y`, which never holds of not-a-number values. -/
def lt (x y : Binary64) : Bool :=
  !x.isNaN && !y.isNaN && Float.ofBits x.bits < Float.ofBits y.bits

/-- How a number compares with an integer, exactly. Not-a-number values do not compare. -/
def compareInt? (x : Binary64) (n : Int) : Option Ordering :=
  if x.isNaN then none
  else if x.isInfinite then some (if x.isNegative then .lt else .gt)
  else
    let (p, q) := x.ratio
    some (compare (x.withSign p) (n * q))

/-- The sixteen hexadecimal digits of the bits. -/
def hexText (x : Binary64) : String :=
  let digits := Nat.toDigits 16 x.bits.toNat
  String.ofList (List.replicate (16 - digits.length) '0' ++ digits)

end Binary64

end Chip8
