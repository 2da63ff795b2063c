/-
Numbers to base sixteen: written with lower-case digits, as object ids are, and read with digits of either case.
-/

namespace SharedBuffer

/-- the digits of a number to base sixteen, without leading zeros -/
def hexDigits (n : Nat) : String := String.ofList (Nat.toDigits 16 n)

/-- `0x` and the digits, with no padding -/
def hexText (n : Nat) : String := "0x" ++ hexDigits n

/-- `0x` and at least `width` digits, padded with zeros on the left -/
def paddedHexText (width n : Nat) : String :=
  let digits := Nat.toDigits 16 n
  "0x" ++ String.ofList (List.replicate (width - digits.length) '0' ++ digits)

/-- the value of a digit to base sixteen -/
def digitValue (c : Char) : Nat :=
  if c.isDigit then c.toNat - '0'.toNat
  else if c.isLower then c.toNat - 'a'.toNat + 10
  else c.toNat - 'A'.toNat + 10

/-- the number that digits write to a base -/
def ofDigits (base : Nat) (digits : List Char) : Nat := digits.foldl (fun n c => base * n + digitValue c) 0

/-- whether a character is a digit to base sixteen -/
def isHexDigit (c : Char) : Bool := c.isDigit || ('a' ≤ c && c ≤ 'f') || ('A' ≤ c && c ≤ 'F')

end SharedBuffer
