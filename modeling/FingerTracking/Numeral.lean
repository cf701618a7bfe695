/-!
Numerals: how whole numbers are written and read.

Written: right-aligned in a field (`aligned`, `zeroPadded`) and in hexadecimal with its mark
(`hex`). Read: an optional sign and one or more decimal digits, nothing else (`readInt?`), or
unsigned with at most a plus (`readNat?`). Reading takes ASCII digits only.
-/

namespace FingerTracking.Numeral

/-- `text` moved to the right end of a field of `width` characters by `fill`. A longer text
stays as it is. -/
def padLeft (width : Nat) (fill : Char) (text : String) : String :=
  String.ofList (text.toList.leftpad width fill)

/-- `n` with leading zeros up to `width` digits. -/
def zeroPadded (width n : Nat) : String :=
  padLeft width '0' (toString n)

/-- `n` with leading blanks up to `width` characters. -/
def aligned (width n : Nat) : String :=
  padLeft width ' ' (toString n)

/-- `n` in lower-case hexadecimal, marked by `0x`. -/
def hex (n : Nat) : String :=
  "0x" ++ String.ofList (Nat.toDigits 16 n)

/-- The value of a digit of base sixteen, in either case of letter. -/
def digitValue? (c : Char) : Option Nat :=
  if '0' ≤ c ∧ c ≤ '9' then some (c.toNat - '0'.toNat)
  else if 'a' ≤ c ∧ c ≤ 'f' then some (c.toNat - 'a'.toNat + 10)
  else if 'A' ≤ c ∧ c ≤ 'F' then some (c.toNat - 'A'.toNat + 10)
  else none

/-- The number that follows `acc` when the digits `cs` of base `base` are read on. -/
def readDigits? (base : Nat) : Nat → List Char → Option Nat
  | acc, [] => some acc
  | acc, c :: cs =>
    match digitValue? c with
    | some d => if d < base then readDigits? base (acc * base + d) cs else none
    | none => none

/-- The number that one or more digits of base `base` write. -/
def ofDigits? (base : Nat) : List Char → Option Nat
  | [] => none
  | cs => readDigits? base 0 cs

/-- An unsigned decimal number: a plus may stand in front, a minus may not. -/
def readNat? : List Char → Option Nat
  | '+' :: cs => ofDigits? 10 cs
  | cs => ofDigits? 10 cs

/-- A decimal number with an optional sign. -/
def readInt? : List Char → Option Int
  | '-' :: cs => (ofDigits? 10 cs).map fun n => -(n : Int)
  | '+' :: cs => (ofDigits? 10 cs).map Int.ofNat
  | cs => (ofDigits? 10 cs).map Int.ofNat

/-- The number as one of 32 bits, if it is in their range. -/
def toInt32? (n : Int) : Option Int32 :=
  if Int32.minValue.toInt ≤ n ∧ n ≤ Int32.maxValue.toInt then some (Int32.ofInt n) else none

end FingerTracking.Numeral
