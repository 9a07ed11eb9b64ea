import Chip8.Pacer
import Chip8.Proofs.Number.Sign

/-!
# Pacers that never go back

The number of cycles that a pacer gives is never negative. That depends on what it carries: with
less than nothing carried, the cycles to come would be fewer than none. A pacer is *fair* while
nothing in it is below zero. It is so when it is made, and advancing it keeps it so, even when
advancing fails.

## Main results

* `Pacer.fair_create` — every pacer is fair when it is made
* `Pacer.Fair.advance` — advancing leaves a fair pacer and gives no negative number of cycles
-/

namespace Chip8

/-! ### Quantities -/

namespace Quantity

/-- Whether a quantity is not below zero. -/
def NotNegative : Quantity → Prop
  | whole n => 0 ≤ n
  | real x => x.NotNegative

variable {a b c : Quantity}

theorem NotNegative.toReal {x : Binary64} (h : a.NotNegative) (he : a.toReal = .ok x) :
    x.NotNegative := by
  cases a with
  | real y =>
    obtain rfl : y = x := by simpa [Quantity.toReal] using he
    exact h
  | whole n =>
    cases hx : Binary64.ofInt? n with
    | none => simp [Quantity.toReal, hx] at he
    | some y =>
      obtain rfl : y = x := by simpa [Quantity.toReal, hx] using he
      exact Binary64.notNegative_of_ofInt? h hx

/-- A product of quantities of which one at least is a floating point number. -/
theorem notNegative_mul_toReal (ha : a.NotNegative) (hb : b.NotNegative)
    (he : (do return real ((← a.toReal) * (← b.toReal)) : Except Problem Quantity) = .ok c) :
    c.NotNegative := by
  cases hx : a.toReal with
  | error e => simp [hx, bind, Except.bind] at he
  | ok x =>
    cases hy : b.toReal with
    | error e => simp [hx, hy, bind, Except.bind] at he
    | ok y =>
      rw [hx, hy] at he
      obtain rfl := Except.ok.inj he
      exact (ha.toReal hx).mul (hb.toReal hy)

theorem NotNegative.mul (ha : a.NotNegative) (hb : b.NotNegative) (he : a.mul b = .ok c) :
    c.NotNegative := by
  cases a with
  | real x => exact notNegative_mul_toReal ha hb he
  | whole m =>
    cases b with
    | real y => exact notNegative_mul_toReal ha hb he
    | whole n =>
      obtain rfl : whole (m * n) = c := by simpa [Quantity.mul, lift] using he
      exact Int.mul_nonneg ha hb

theorem notNegative_of_isAtMostZero (h : a.isAtMostZero = false) : a.NotNegative := by
  cases a with
  | whole n =>
    have : ¬n ≤ 0 := by simpa [isAtMostZero] using h
    exact Int.le_of_lt (Int.not_le.mp this)
  | real x => exact Binary64.notNegative_of_compareInt? h

theorem notNegative_of_lt (h : a.lt (.real .zero) = false) : a.NotNegative := by
  cases a with
  | whole n =>
    refine Binary64.nonneg_of_compareInt?_zero fun hc => ?_
    rw [lt, hc] at h
    contradiction
  | real x => exact Binary64.notNegative_of_lt h

/-- The integer part of what is not below zero. -/
theorem NotNegative.truncate {n : Int} (h : a.NotNegative) (he : a.truncate = .ok n) : 0 ≤ n := by
  cases a with
  | whole m =>
    obtain rfl := Except.ok.inj he
    exact h
  | real x =>
    rw [Quantity.truncate, finite] at he
    by_cases hn : x.isNaN = true
    · rw [if_pos hn] at he
      contradiction
    rw [if_neg hn] at he
    split at he
    · contradiction
    · obtain rfl := Except.ok.inj he
      exact h.truncate_nonneg (Bool.eq_false_iff.mpr hn)

end Quantity

/-! ### Pacers -/

namespace Pacer

/-- Whether nothing in a pacer is below zero. What is no number is not below zero either, so a pacer
that was given a time without a value stays fair. -/
structure Fair (p : Pacer) : Prop where
  speed : p.speed.NotNegative
  longest : p.longest.NotNegative
  carry : p.carry.NotNegative

theorem notNegative_tolerance : tolerance.NotNegative := .inr (.inr (by decide))

/-- Every pacer that is made is fair, whatever its speed and its longest time. -/
theorem fair_create {speed longest : Quantity} {p : Pacer} (h : create speed longest = .ok p) :
    p.Fair := by
  rw [create] at h
  split at h
  · contradiction
  · next hs =>
    split at h
    · contradiction
    · next hl =>
      obtain rfl := Except.ok.inj h
      exact ⟨Quantity.notNegative_of_isAtMostZero (Bool.eq_false_iff.mpr hs),
        Quantity.notNegative_of_isAtMostZero (Bool.eq_false_iff.mpr hl), Binary64.notNegative_zero⟩

variable {p : Pacer}

/-- The time that counts is not negative, whatever time has elapsed. -/
theorem Fair.counted (h : p.Fair) (elapsed : Quantity) : (p.counted elapsed).NotNegative := by
  have hfrom : (if elapsed.lt (.real .zero) then .real .zero else elapsed).NotNegative := by
    split
    · exact Binary64.notNegative_zero
    · next he => exact Quantity.notNegative_of_lt (Bool.eq_false_iff.mpr he)
  rw [Pacer.counted]
  generalize (if elapsed.lt (.real .zero) then .real .zero else elapsed) = t at hfrom ⊢
  split
  · exact h.longest
  · exact hfrom

/-- Advancing leaves a fair pacer, and if it gives a number of cycles, this is not negative. -/
theorem Fair.advance (h : p.Fair) (elapsed : Quantity) :
    match advance elapsed p with
    | .ok n q => 0 ≤ n ∧ q.Fair
    | .error _ q => q.Fair := by
  rw [Pacer.advance]
  cases hg : (p.counted elapsed).mul p.speed >>= Quantity.toReal with
  | error e => exact h
  | ok gained =>
    have htotal : (p.carry + gained).NotNegative := by
      refine h.carry.add ?_
      cases hm : (p.counted elapsed).mul p.speed with
      | error e =>
        rw [hm] at hg
        contradiction
      | ok product =>
        rw [hm] at hg
        exact ((h.counted elapsed).mul h.speed hm).toReal hg
    have hadded : Fair { p with carry := p.carry + gained } := ⟨h.speed, h.longest, htotal⟩
    cases ht : (Quantity.real (p.carry + gained + tolerance)).truncate with
    | error e =>
      simp only [ht]
      exact hadded
    | ok cycles =>
      have hcycles : 0 ≤ cycles :=
        Quantity.NotNegative.truncate (a := .real _) (htotal.add notNegative_tolerance) ht
      cases hw : (Quantity.whole cycles).toReal with
      | error e =>
        simp only [ht, hw]
        exact hadded
      | ok whole =>
        simp only [ht, hw]
        refine ⟨hcycles, h.speed, h.longest, ?_⟩
        split
        · exact Binary64.notNegative_zero
        · next hrest => exact Binary64.notNegative_of_lt (Bool.eq_false_iff.mpr hrest)

theorem Fair.of_advance_ok {elapsed : Quantity} {n : Int} {q : Pacer} (h : p.Fair)
    (he : Pacer.advance elapsed p = .ok n q) : 0 ≤ n ∧ q.Fair := by
  have hadvance := h.advance elapsed
  rwa [he] at hadvance

theorem Fair.of_advance_error {elapsed : Quantity} {e : Quantity.Problem} {q : Pacer} (h : p.Fair)
    (he : Pacer.advance elapsed p = .error e q) : q.Fair := by
  have hadvance := h.advance elapsed
  rwa [he] at hadvance

end Pacer

end Chip8
