import Chip8.Number.Quantity

/-!
# Pacing

A pacer turns elapsed time into whole cycles at a given speed. What is left of a cycle is carried
to the next call. Time beyond `longest` is not made up for, so a long pause is not followed by a
burst of cycles.

The bounds are applied by comparison: an elapsed time that compares with nothing passes through
them, and so does an integer, as the integer it is.
-/

namespace Chip8

/-- A speed, a bound on the elapsed time, and what is left of a cycle. -/
structure Pacer where
  /-- The speed, in cycles a second. -/
  speed : Quantity
  /-- The longest time that counts, in seconds. -/
  longest : Quantity
  /-- The fraction of a cycle that is carried to the next call. -/
  carry : Binary64
  deriving DecidableEq, Repr

namespace Pacer

/-- A reason why there is no pacer of a given kind. -/
inductive Refusal where
  | speedNotPositive
  | longestNotPositive
  deriving DecidableEq, Repr

/-- A refusal in words. -/
def Refusal.message : Refusal → String
  | speedNotPositive => "cycles_per_second must be positive"
  | longestNotPositive => "max_elapsed must be positive"

/-- The usual speed, in cycles a second. -/
def defaultSpeed : Int := 500

/-- The usual longest time, a quarter of a second. -/
def defaultLongest : Binary64 := ⟨0x3FD0000000000000⟩

/-- A billionth of a cycle, to make up for rounding: two halves are one cycle. -/
def tolerance : Binary64 := ⟨0x3E112E0BE826D695⟩

/-- A pacer with nothing carried. -/
def create (speed longest : Quantity) : Except Refusal Pacer :=
  if speed.isAtMostZero then .error .speedNotPositive
  else if longest.isAtMostZero then .error .longestNotPositive
  else .ok ⟨speed, longest, .zero⟩

/-- A pacer with the usual speed and the usual longest time. -/
def initial : Pacer := ⟨.whole defaultSpeed, .real defaultLongest, .zero⟩

/-- The elapsed time that counts. -/
def counted (p : Pacer) (elapsed : Quantity) : Quantity :=
  let atLeastZero := if elapsed.lt (.real .zero) then .real .zero else elapsed
  if p.longest.lt atLeastZero then p.longest else atLeastZero

/-- The number of cycles for some elapsed seconds. If there is none, the time is added to what is
carried even so, unless it cannot be added. -/
def advance (elapsed : Quantity) : EStateM Quantity.Problem Pacer Int := fun p =>
  match (p.counted elapsed).mul p.speed >>= Quantity.toReal with
  | .error e => .error e p
  | .ok gained =>
    let total := p.carry + gained
    let added := { p with carry := total }
    match (Quantity.real (total + tolerance)).truncate with
    | .error e => .error e added
    | .ok cycles =>
      match (Quantity.whole cycles).toReal with
      | .error e => .error e added
      | .ok whole =>
        let rest := total - whole
        .ok cycles { p with carry := if rest.lt .zero then .zero else rest }

end Pacer

end Chip8
