import Chip8.Number.Binary64

/-!
# Quantities

Settings and clock readings are integers of any size or floating point numbers. An integer stays
exact as long as it meets integers only. When it meets a floating point number it is rounded to
one first, which fails if it is too large.
-/

namespace Chip8

/-- An integer or a floating point number. -/
inductive Quantity where
  | whole (n : Int)
  | real (x : Binary64)
  deriving DecidableEq, Repr

namespace Quantity

/-- A reason why a calculation has no result. -/
inductive Problem where
  /-- A not-a-number value has no integer part. -/
  | notANumber
  /-- An infinite value has no integer part. -/
  | infinite
  /-- An integer or a quotient is too large for a floating point number. -/
  | tooLarge
  | divisionByZero
  deriving DecidableEq, Repr

/-- A problem in words. -/
def Problem.message : Problem → String
  | notANumber => "cannot convert float NaN to integer"
  | infinite => "cannot convert float infinity to integer"
  | tooLarge => "int too large to convert to float"
  | divisionByZero => "division by zero"

/-- A quantity as a floating point number. -/
def toReal : Quantity → Except Problem Binary64
  | real x => .ok x
  | whole n =>
    match Binary64.ofInt? n with
    | some x => .ok x
    | none => .error .tooLarge

/-- An operation on integers and on floating point numbers, for any two quantities. -/
def lift (onInt : Int → Int → Int) (onReal : Binary64 → Binary64 → Binary64) (a b : Quantity) :
    Except Problem Quantity :=
  match a, b with
  | whole m, whole n => .ok (whole (onInt m n))
  | _, _ => do return real (onReal (← a.toReal) (← b.toReal))

/-- The product. -/
def mul : Quantity → Quantity → Except Problem Quantity := lift (· * ·) (· * ·)

/-- The difference. -/
def sub : Quantity → Quantity → Except Problem Quantity := lift (· - ·) (· - ·)

/-- The quotient, rounded once. -/
def div (a b : Quantity) : Except Problem Binary64 :=
  match a, b with
  | whole m, whole n =>
    if n = 0 then .error .divisionByZero
    else
      match Binary64.ofRatio? m n with
      | some x => .ok x
      | none => .error .tooLarge
  | _, _ => do
    let x ← a.toReal
    let y ← b.toReal
    if y.magnitude = 0 then .error .divisionByZero else return x / y

/-- Whether `a < b`. Comparisons are exact, and never hold of not-a-number values. -/
def lt : Quantity → Quantity → Bool
  | whole m, whole n => m < n
  | real x, whole n => x.compareInt? n == some .lt
  | whole m, real y => y.compareInt? m == some .gt
  | real x, real y => x.lt y

/-- Whether a quantity is zero or less. It does not hold of not-a-number values. -/
def isAtMostZero : Quantity → Bool
  | whole n => n ≤ 0
  | real x => (x.compareInt? 0).any (· != .gt)

/-- A finite value. -/
def finite (x : Binary64) : Except Problem Binary64 :=
  if x.isNaN then .error .notANumber
  else if x.isInfinite then .error .infinite
  else .ok x

/-- The integer part. -/
def truncate : Quantity → Except Problem Int
  | whole n => .ok n
  | real x => do return (← finite x).truncate

end Quantity

end Chip8
