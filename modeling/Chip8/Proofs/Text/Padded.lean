import Chip8.Proofs.Text.Numeral

/-!
# Numbers in columns

The digits that are written in base sixteen are those of `Nat.toDigits` in capital letters, and what
is put in front of them is what `List.leftpad` puts there. So a number without a sign can be
described by the library alone, in base sixteen and in base ten.

A sign counts as a digit of its column. Nothing is said here about numbers that have one.

## Main results

* `hex_natCast`, `hex_eq` — numbers in base sixteen
* `rightAligned_natCast` — numbers in base ten
-/

namespace Chip8.Text

/-- A number in base sixteen, in a column that is filled up with zeros. -/
def capitalHex (width n : Nat) : String :=
  String.ofList (((Nat.toDigits 16 n).map Char.toUpper).leftpad width '0')

/-- A number in base ten, in a column that is filled up with blanks. -/
def column (width n : Nat) : String :=
  String.ofList ((toString n).toList.leftpad width ' ')

theorem hexDigit_eq : ∀ d < 16, hexDigit d = (Nat.digitChar d).toUpper := by decide

theorem hexDigitsBelow_eq {k n : Nat} (h : n.log2 / 4 ≤ k) :
    hexDigitsBelow hexDigit k n = (Nat.toDigits 16 n).map Char.toUpper := by
  have hlast : hexDigit (n % 16) = (Nat.digitChar (n % 16)).toUpper :=
    hexDigit_eq _ (Nat.mod_lt n (by decide))
  induction k generalizing n with
  | zero =>
    have hn : n < 16 := by
      refine Nat.lt_of_not_le fun hle => ?_
      have := log2_of_le hle
      omega
    rw [hexDigitsBelow, hlast, Nat.mod_eq_of_lt hn, Nat.toDigits_of_lt_base hn]
    rfl
  | succ k ih =>
    rw [hexDigitsBelow]
    by_cases hn : n < 16
    · rw [if_pos hn, hexDigit_eq n hn, Nat.toDigits_of_lt_base hn]
      rfl
    · have hlog := log2_of_le (Nat.le_of_not_lt hn)
      have hfront := ih (n := n / 16) (by omega) (hexDigit_eq _ (Nat.mod_lt _ (by decide)))
      rw [if_neg hn, hfront, hlast, Nat.toDigits_of_base_le (by decide) (Nat.le_of_not_lt hn),
        List.map_append]
      rfl

theorem hex_natCast (width n : Nat) : hex width n = capitalHex width n := by
  rw [hex, hexChars, if_neg (Int.not_lt.mpr (Int.natCast_nonneg n)), Int.natAbs_natCast, hexDigits,
    hexDigitsBelow_eq (Nat.le_refl _)]
  rfl

theorem hex_eq (width : Nat) {n : Int} (h : 0 ≤ n) : hex width n = capitalHex width n.toNat := by
  rw [← hex_natCast, Int.toNat_of_nonneg h]

theorem rightAligned_natCast (width n : Nat) : rightAligned width n = column width n := rfl

example : capitalHex 4 0x2FA = "02FA" := by decide

end Chip8.Text
