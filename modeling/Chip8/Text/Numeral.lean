import Chip8.Text.Blank
import Chip8.Text.DecimalDigit
import Chip8.Text.Uppercase

/-!
# Numerals

A numeral is a run of digits in base ten, sixteen or two. Digits of any script count, and one
underscore may stand between two digits, so `1_000` and `٣` are numerals and `1__0` is not.

Only base ten takes a sign, and only base ten has a limit on its length: `maxDecimalDigits`
digits, leading zeros included and underscores left out.

## Two readers

* `decimal?` reads base ten, blanks around it allowed, other than the four information separators.
  Command line values are read by it.
* `numeral?` also reads the marks `0x` and `0b`, in either case. Operands are read by it, which
  have no blanks around them any more.
-/

namespace Chip8.Text

/-- The longest numeral in base ten, in digits. -/
def maxDecimalDigits : Nat := 4300

/-- The value of a digit: a decimal digit of any script, or a capital letter `A` to `F`. -/
def digitValue? (base : Nat) (c : Char) : Option Nat :=
  let value :=
    if 'A'.toNat ≤ c.toNat ∧ c.toNat ≤ 'F'.toNat then some (c.toNat - 'A'.toNat + 10)
    else decimalValue? c
  value.filter (· < base)

/-- The values of a run of digits, where one underscore may stand between two digits: no piece
between underscores is empty. -/
def digits? (base : Nat) (cs : List Char) : Option (List Nat) :=
  if (pieces '_' cs).any List.isEmpty then none
  else (cs.filter (· ≠ '_')).mapM (digitValue? base)

/-- The number that a run of digits stands for. -/
def ofDigits (base : Nat) (ds : List Nat) : Nat :=
  ds.foldl (fun n d => n * base + d) 0

/-- Base ten without a sign. -/
def unsignedDecimal? (cs : List Char) : Option Nat := do
  let ds ← digits? 10 cs
  if ds.length ≤ maxDecimalDigits then some (ofDigits 10 ds) else none

/-- Whether a character is an information separator. -/
def isSeparator (c : Char) : Bool :=
  0x1C ≤ c.toNat && c.toNat ≤ 0x1F

/-- Base ten with or without a sign, blanks around it allowed. -/
def decimal? (cs : List Char) : Option Int :=
  if cs.any isSeparator then none
  else
    match strip cs with
    | '-' :: ds => (unsignedDecimal? ds).map fun n => -(n : Int)
    | '+' :: ds => (unsignedDecimal? ds).map Int.ofNat
    | ds => (unsignedDecimal? ds).map Int.ofNat

/-- What may follow the mark of a base: digits, one underscore allowed before them. -/
def marked? (base : Nat) (cs : List Char) : Option Int :=
  let digits := match cs with
    | '_' :: ds => ds
    | ds => ds
  (digits? base digits).map fun ds => Int.ofNat (ofDigits base ds)

/-- A number in base sixteen after `0x`, in base two after `0b`, and else in base ten. Case is
dropped before anything else is looked at. -/
def numeral? (cs : List Char) : Option Int :=
  match upper (strip cs) with
  | '0' :: 'X' :: ds => marked? 16 ds
  | '0' :: 'B' :: ds => marked? 2 ds
  | ds => decimal? ds

example : numeral? "0xFf".toList = some 255 := by decide +kernel

example : numeral? " 0b_1_0 ".toList = some 2 := by decide +kernel

example : numeral? "-1_000".toList = some (-1000) := by decide +kernel

example : decimal? "5\x1f".toList = none ∧ decimal? "٥\t".toList = some 5 := by decide +kernel

example : numeral? "1__0".toList = none ∧ numeral? "-0x1".toList = none := by decide +kernel

end Chip8.Text
