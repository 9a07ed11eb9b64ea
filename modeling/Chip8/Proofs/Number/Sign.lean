import Chip8.Number.Binary64
import Mathlib

/-!
# Numbers that are not below zero

Elapsed times and cycles to come are never negative. In floating point that takes an argument: the
sums and products are those of the hardware, zero comes with either sign, and what is no number has
a sign bit as well. Here it is shown that none of them leads below zero.

The hardware's operations unpack their operands to a sign, a significand and an exponent, and pack
the result again. So the argument is made on unpacked values (`IsUp`) and carried over to the bits.

## Main results

* `notNegative_iff` — the sign read off the bits, and off the unpacked value
* `NotNegative.add`, `NotNegative.mul`, `notNegative_of_lt` — sums, products and comparisons
* `NotNegative.truncate_nonneg` — the integer part
-/

namespace Chip8

namespace Binary64

open Float.Model Float.Model.UnpackedFloat

/-! ### The fields of the bits -/

/-- Sixty-four bits as the hardware's operations take them apart. -/
abbrev Packed := BitVec Format.binary64.numBits

theorem toNat_unpackSign (b : Packed) : (unpackSign b).toNat = b.toNat / 2 ^ 63 := by
  have hb : b.toNat < 2 ^ 64 := b.isLt
  simp only [unpackSign, BitVec.toNat_cast, BitVec.extractLsb_toNat, Nat.shiftRight_eq_div_pow]
  omega

theorem toNat_unpackExponent (b : Packed) :
    (unpackExponent b).toNat = b.toNat / 2 ^ 52 % 2 ^ 11 := by
  simp [unpackExponent, Nat.shiftRight_eq_div_pow]

theorem toNat_unpackMantissa (b : Packed) : (unpackMantissa b).toNat = b.toNat % 2 ^ 52 := by
  simp [unpackMantissa]

/-- Packing loses nothing but the bits of what is no number, and unpacking does not see those. -/
theorem unpack_pack_unpack (b : Packed) :
    UnpackedFloat.unpack Format.binary64
        (UnpackedFloat.pack Format.binary64 (UnpackedFloat.unpack Format.binary64 b)) =
      UnpackedFloat.unpack Format.binary64 b := by
  rw [pack_unpack]
  split
  · next h =>
    obtain ⟨hexponent, hmantissa⟩ := of_decide_eq_true h
    rw [unpack_packedNaN, UnpackedFloat.unpack, if_pos hexponent, if_neg hmantissa]
  · rfl

/-! ### Unpacked values -/

/-- Whether an unpacked value is not below zero. -/
def IsUp : UnpackedFloat → Prop
  | .infinity s | .finite s _ _ _ => s = .positive
  | .zero _ | .notANumber => True

theorem ofBitVec_eq_positive_iff (v : BitVec 1) : Sign.ofBitVec v = .positive ↔ v = 0#1 := by
  rw [Sign.ofBitVec]
  split <;> simp_all

/-- The sign counts unless the value is zero or no number. -/
theorem isUp_unpack_iff (b : Packed) :
    IsUp (UnpackedFloat.unpack Format.binary64 b) ↔
      unpackSign b = 0#1 ∨ (unpackExponent b = -1#11 ∧ unpackMantissa b ≠ 0#52) ∨
        (unpackExponent b = 0#11 ∧ unpackMantissa b = 0#52) := by
  have hs := ofBitVec_eq_positive_iff (unpackSign b)
  rw [UnpackedFloat.unpack]
  by_cases hall : unpackExponent b = -1#11
  · by_cases hzero : unpackMantissa b = 0#52
    · rw [if_pos hall, if_pos hzero, IsUp, hs, hall, hzero]
      simp
    · rw [if_pos hall, if_neg hzero]
      simp only [IsUp, hall, hzero, ne_eq, not_false_eq_true, and_self, true_or, or_true]
  rw [if_neg hall]
  by_cases hsub : unpackExponent b = 0#11
  · rw [if_pos hsub]
    by_cases hzero : unpackMantissa b = 0#52
    · rw [dif_pos hzero]
      simp [IsUp, hsub, hzero]
    · rw [dif_neg hzero, IsUp, hs]
      simp only [hall, hzero, false_and, and_false, or_false]
  · rw [if_neg hsub, IsUp, hs]
    simp only [hall, hsub, false_and, or_false]

theorem isUp_unpack_packComponents (e : BitVec 11) (m : BitVec 52) :
    IsUp (UnpackedFloat.unpack Format.binary64 (packComponents Format.binary64 .positive e m)) :=
  (isUp_unpack_iff _).mpr (.inl (unpackSign_packComponents _ _ _))

/-- Packing keeps the sign, whatever becomes of the value. -/
theorem isUp_unpack_pack {u : UnpackedFloat} (h : IsUp u) :
    IsUp (UnpackedFloat.unpack Format.binary64 (UnpackedFloat.pack Format.binary64 u)) := by
  cases u with
  | notANumber => exact isUp_unpack_packComponents _ _
  | zero s =>
    exact (isUp_unpack_iff _).mpr
      (.inr (.inr ⟨unpackExponent_packComponents, unpackMantissa_packComponents⟩))
  | infinity s =>
    obtain rfl : s = .positive := h
    exact isUp_unpack_packComponents _ _
  | finite s m e hp =>
    obtain rfl : s = .positive := h
    simp only [UnpackedFloat.pack]
    split
    · exact isUp_unpack_packComponents _ _
    · split <;> exact isUp_unpack_packComponents _ _

theorem isUp_roundWithAccuracy (spec : Format) (m : Nat) (e : Int) (a : Accuracy) :
    IsUp (roundWithAccuracy spec .positive m e a) := by
  rw [roundWithAccuracy]
  simp only
  split <;> trivial

theorem isUp_normalize (spec : Format) {m : Int} (hm : 0 ≤ m) (e : Int) (s : Sign) :
    IsUp (UnpackedFloat.normalize spec m e s) := by
  rw [UnpackedFloat.normalize]
  split
  · next h =>
    rw [Int.compare_eq_lt] at h
    omega
  · trivial
  · exact isUp_roundWithAccuracy spec _ _ _

theorem isUp_mul (spec : Format) {a b : UnpackedFloat} (ha : IsUp a) (hb : IsUp b) :
    IsUp (UnpackedFloat.mul spec a b) := by
  cases a <;> cases b <;> simp only [IsUp] at ha hb <;> subst_vars <;>
    first
      | trivial
      | exact isUp_roundWithAccuracy spec _ _ _

theorem isUp_add (spec : Format) {a b : UnpackedFloat} (ha : IsUp a) (hb : IsUp b) :
    IsUp (UnpackedFloat.add spec a b) := by
  cases a with
  | notANumber => trivial
  | infinity s =>
    obtain rfl : s = .positive := ha
    cases b with
    | infinity t =>
      obtain rfl : t = .positive := hb
      rfl
    | _ => trivial
  | zero s =>
    cases b with
    | zero t =>
      rw [UnpackedFloat.add]
      split <;> trivial
    | _ => exact hb
  | finite s m e hp =>
    obtain rfl : s = .positive := ha
    cases b with
    | finite t m' e' hp' =>
      obtain rfl : t = .positive := hb
      exact isUp_normalize spec
        (Int.add_nonneg (Int.natCast_nonneg _) (Int.natCast_nonneg _)) _ _
    | _ => trivial

/-! ### Numbers -/

/-- Whether a number is not below zero. Zero may have either sign, and what is no number is not
below anything. -/
def NotNegative (x : Binary64) : Prop :=
  x.isNaN = true ∨ x.magnitude = 0 ∨ x.isNegative = false

variable {x y : Binary64}

/-- The value of a number as the hardware's operations see it. -/
def unpacked (x : Binary64) : UnpackedFloat :=
  UnpackedFloat.unpack Format.binary64 x.bits.toBitVec

theorem magnitude_eq (x : Binary64) : x.magnitude = x.bits.toNat % 2 ^ 63 := rfl

theorem isNaN_iff (x : Binary64) :
    x.isNaN = true ↔ x.magnitude / 2 ^ 52 = 2 ^ 11 - 1 ∧ x.magnitude % 2 ^ 52 ≠ 0 := by
  have hm := x.magnitude_eq
  rw [isNaN, decide_eq_true_iff, infiniteMagnitude]
  omega

theorem isNegative_eq_false_iff (x : Binary64) :
    x.isNegative = false ↔ x.bits.toNat / 2 ^ 63 = 0 := by
  have h : (0x8000000000000000 : UInt64).toNat = 2 ^ 63 := rfl
  rw [isNegative, decide_eq_false_iff_not, UInt64.le_iff_toNat_le, h]
  omega

/-- The sign read off the bits, and off the unpacked value. -/
theorem notNegative_iff (x : Binary64) : x.NotNegative ↔ IsUp x.unpacked := by
  have hb : x.bits.toNat < 2 ^ 64 := x.bits.toNat_lt
  have hs := toNat_unpackSign (x.bits.toBitVec : Packed)
  have he := toNat_unpackExponent (x.bits.toBitVec : Packed)
  have hf := toNat_unpackMantissa (x.bits.toBitVec : Packed)
  change _ = x.bits.toNat / 2 ^ 63 at hs
  change _ = x.bits.toNat / 2 ^ 52 % 2 ^ 11 at he
  change _ = x.bits.toNat % 2 ^ 52 at hf
  have hall : (-1#11).toNat = 2 ^ 11 - 1 := rfl
  rw [unpacked, isUp_unpack_iff, NotNegative, isNaN_iff, isNegative_eq_false_iff, magnitude_eq]
  simp only [← BitVec.toNat_inj, hs, he, hf, hall, BitVec.toNat_ofNat, ne_eq]
  omega

theorem notNegative_of_isNaN (h : x.isNaN = true) : x.NotNegative := .inl h

theorem notNegative_zero : zero.NotNegative := .inr (.inl rfl)

/-! ### Sums and products -/

theorem isNaN_passedOn (h : x.isNaN = true) : x.passedOn.isNaN = true := by
  rw [isNaN, decide_eq_true_iff] at h ⊢
  refine Nat.lt_of_lt_of_le h ?_
  rw [magnitude_eq, magnitude_eq, passedOn, UInt64.toNat_or, Nat.or_mod_two_pow]
  exact Nat.left_le_or

theorem notNegative_ofFloat {a : Float} (h : IsUp a.toModel.unpack) : (ofFloat a).NotNegative := by
  rw [ofFloat]
  split
  · exact notNegative_of_isNaN rfl
  · exact (notNegative_iff _).mpr h

/-- The native operand of an operation has the value of the number. -/
theorem unpack_ofBits (x : Binary64) : (Float.ofBits x.bits).toModel.unpack = x.unpacked :=
  unpack_pack_unpack _

theorem NotNegative.isUp (h : x.NotNegative) : IsUp (Float.ofBits x.bits).toModel.unpack := by
  rw [unpack_ofBits]
  exact (notNegative_iff x).mp h

/-- An operation that leads from values that are not below zero to such values does so on numbers
as well. -/
theorem NotNegative.lift {op : Float → Float → Float}
    (hop : ∀ a b : Float, IsUp a.toModel.unpack → IsUp b.toModel.unpack →
      IsUp (op a b).toModel.unpack)
    (hx : x.NotNegative) (hy : y.NotNegative) : (Binary64.lift op x y).NotNegative := by
  rw [Binary64.lift]
  split
  · next h => exact notNegative_of_isNaN (isNaN_passedOn h)
  split
  · next h => exact notNegative_of_isNaN (isNaN_passedOn h)
  · exact notNegative_ofFloat (hop _ _ hx.isUp hy.isUp)

theorem NotNegative.add (hx : x.NotNegative) (hy : y.NotNegative) : (x + y).NotNegative :=
  NotNegative.lift (fun _ _ ha hb => isUp_unpack_pack (isUp_add _ ha hb)) hx hy

theorem NotNegative.mul (hx : x.NotNegative) (hy : y.NotNegative) : (x * y).NotNegative :=
  NotNegative.lift (fun _ _ ha hb => isUp_unpack_pack (isUp_mul _ ha hb)) hx hy

/-! ### Comparisons and integers -/

/-- What lies below zero compares as less. -/
theorem compare_zero_of_not_isUp {u : UnpackedFloat} (h : ¬IsUp u) (s : Sign) :
    u.compare (.zero s) = some .lt := by
  cases u with
  | notANumber | zero => exact absurd trivial h
  | infinity t | finite t =>
    cases t with
    | positive => exact absurd rfl h
    | negative => rfl

/-- A number that does not compare as less than zero is not below it. -/
theorem notNegative_of_lt (h : x.lt zero = false) : x.NotNegative := by
  by_cases hn : x.isNaN = true
  · exact notNegative_of_isNaN hn
  rw [notNegative_iff]
  by_cases hup : IsUp x.unpacked
  · exact hup
  have hz : (Float.ofBits zero.bits).toModel.unpack = .zero .positive := rfl
  have hmodel : (Float.ofBits x.bits).toModel < (Float.ofBits zero.bits).toModel := by
    change ((Float.ofBits x.bits).toModel.unpack.compare
      (Float.ofBits zero.bits).toModel.unpack == some .lt) = true
    rw [unpack_ofBits, hz, compare_zero_of_not_isUp hup]
    rfl
  have hlt : Float.ofBits x.bits < Float.ofBits zero.bits := decide_eq_true hmodel
  have hnz : zero.isNaN = false := by decide
  simp [lt, hn, hnz, hlt] at h

theorem isNegative_withBits {m : Nat} (h : m < infiniteMagnitude) :
    (⟨UInt64.ofNat m⟩ : Binary64).isNegative = false := by
  have hi : infiniteMagnitude < 2 ^ 63 := by decide
  rw [isNegative_eq_false_iff, UInt64.toNat_ofNat']
  omega

/-- Rounding an integer does not lead below zero. -/
theorem notNegative_of_ofInt? {n : Int} (hn : 0 ≤ n) (h : ofInt? n = some x) : x.NotNegative := by
  have hs : ((n < 0) != ((1 : Int) < 0)) = false := by simpa using hn
  rw [ofInt?, ofRatio?, if_neg (by decide)] at h
  simp only [hs, Bool.false_eq_true, if_false, Nat.zero_add] at h
  generalize (if n = 0 then 0 else magnitudeOfRatio n.natAbs (Int.natAbs 1)) = m at h
  split at h
  · next hm =>
    obtain rfl := Option.some.inj h
    exact .inr (.inr (isNegative_withBits hm))
  · contradiction

theorem withSign_nonneg (h : x.isNegative = false) (n : Nat) : 0 ≤ x.withSign n := by
  rw [withSign, h]
  exact Int.natCast_nonneg n

/-- A number that is neither zero nor less, as far as it compares with zero, is not below it. -/
theorem notNegative_of_compareInt? (h : (x.compareInt? 0).any (· != .gt) = false) :
    x.NotNegative := by
  by_cases hn : x.isNaN = true
  · exact notNegative_of_isNaN hn
  refine .inr (.inr (Bool.eq_false_iff.mpr fun hneg => ?_))
  have hcmp : compare (x.withSign x.ratio.1) (0 * x.ratio.2) ≠ .gt := by
    rw [withSign, if_pos hneg, Int.zero_mul, ne_eq, Int.compare_eq_gt]
    omega
  rw [compareInt?, if_neg hn, if_pos hneg] at h
  split at h
  · contradiction
  · exact hcmp (by simpa using h)

/-- An integer that zero does not exceed. -/
theorem nonneg_of_compareInt?_zero {n : Int} (h : zero.compareInt? n ≠ some .gt) : 0 ≤ n := by
  have hq : 0 < (zero.ratio.2 : Int) := by
    simp only [ratio, twoPow, Nat.one_shiftLeft]
    exact Int.natCast_pos.mpr (Nat.two_pow_pos _)
  have hz : zero.withSign zero.ratio.1 = 0 := by decide
  rw [compareInt?, if_neg (by decide), if_neg (by decide)] at h
  have hle : compare (zero.withSign zero.ratio.1) (n * zero.ratio.2) ≠ .gt :=
    fun hc => h (congrArg some hc)
  rw [hz, ne_eq, Int.compare_eq_gt] at hle
  exact Int.not_lt.mp fun hn => hle (Int.mul_neg_of_neg_of_pos hn hq)

theorem NotNegative.truncate_nonneg (h : x.NotNegative) (hn : x.isNaN = false) :
    0 ≤ x.truncate := by
  rw [truncate]
  rcases h with h | h | h
  · rw [hn] at h
    contradiction
  · have hr : x.ratio.1 = 0 := by simp [ratio, parts, h]
    simp [hr, withSign]
  · exact withSign_nonneg h _

end Binary64

end Chip8
