/-!
# Numbers as hexadecimal and padded decimal text

Listings, faults and state lines all show numbers in hexadecimal with a least width. The width
counts every character written, so the sign of a negative number takes the place of one zero:
with width three, `5` is `005` and `-2` is `-02`.
-/

namespace Chip8.Text

/-- The sixteen digits, with capital letters. -/
def hexDigit (n : Nat) : Char :=
  if n < 10 then Char.ofNat ('0'.toNat + n) else Char.ofNat ('A'.toNat + (n - 10))

/-- The sixteen digits, with small letters. -/
def smallHexDigit (n : Nat) : Char :=
  if n < 10 then Char.ofNat ('0'.toNat + n) else Char.ofNat ('a'.toNat + (n - 10))

/-- The digits of `n` in base sixteen, most significant first and at least one. The first
argument bounds their number. -/
def hexDigitsBelow (digit : Nat → Char) : Nat → Nat → List Char
  | 0, n => [digit (n % 16)]
  | k + 1, n =>
    if n < 16 then [digit n] else hexDigitsBelow digit k (n / 16) ++ [digit (n % 16)]

/-- The digits of `n` in base sixteen, most significant first and at least one. -/
def hexDigits (digit : Nat → Char) (n : Nat) : List Char :=
  hexDigitsBelow digit (n.log2 / 4) n

/-- `text` with as many copies of `fill` in front as bring it to `width` characters. -/
def padLeft (fill : Char) (width : Nat) (text : List Char) : List Char :=
  List.replicate (width - text.length) fill ++ text

/-- A number in base sixteen, at least `width` characters wide with its sign. -/
def hexChars (digit : Nat → Char) (width : Nat) (n : Int) : List Char :=
  if n < 0 then '-' :: padLeft '0' (width - 1) (hexDigits digit n.natAbs)
  else padLeft '0' width (hexDigits digit n.natAbs)

/-- A number in base sixteen with capital letters, at least `width` characters wide. -/
def hex (width : Nat) (n : Int) : String :=
  String.ofList (hexChars hexDigit width n)

/-- A number in base sixteen with small letters, at least `width` characters wide. -/
def smallHex (width : Nat) (n : Int) : String :=
  String.ofList (hexChars smallHexDigit width n)

/-- A number in base ten, right-aligned with blanks in `width` characters. -/
def rightAligned (width : Nat) (n : Int) : String :=
  String.ofList (padLeft ' ' width (toString n).toList)

end Chip8.Text
