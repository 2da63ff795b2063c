/-
TOML scalars that stand without quotes: booleans, numbers and times.

Numbers may have single underscores between digits. A decimal number has no leading zero; whole numbers may be written
to base 16, 8 or 2, then without a sign. Times are checked against the calendar.

A number may have a correct form and still be none that can be held: a whole number of more than 128 bits, a fraction
beyond the doubles, a base without digits. That is no fault of the document, only of whoever asks for the number.
-/
import SharedBuffer.Audit
import SharedBuffer.Text.Hex
import SharedBuffer.Toml.Value

namespace SharedBuffer.Toml

/-! ## Digits -/

/-- digits with the underscores between them taken out; none if an underscore stands elsewhere -/
def ungroup (isDigit : Char → Bool) : List Char → Option (List Char)
  | [] => none
  | [c] => if isDigit c then some [c] else none
  | c :: '_' :: rest => if isDigit c then (ungroup isDigit rest).map (c :: ·) else none
  | c :: rest => if isDigit c then (ungroup isDigit rest).map (c :: ·) else none

/-- whether a character is a digit to base eight -/
def isOctalDigit (c : Char) : Bool := '0' ≤ c && c ≤ '7'

/-- whether a character is a digit to base two -/
def isBinaryDigit (c : Char) : Bool := c == '0' || c == '1'

/-! ## Numbers -/

/-- whether a number is the negative of what follows its sign, and what follows -/
def splitSign : List Char → Bool × List Char
  | '-' :: rest => (true, rest)
  | '+' :: rest => (false, rest)
  | cs => (false, cs)

/-- the digits of a decimal whole number without its sign -/
def decimalDigits? (cs : List Char) : Option (List Char) := do
  let digits ← ungroup Char.isDigit cs
  if digits.head? = some '0' && digits.length ≠ 1 then none else some digits

/-! ### Whole numbers -/

/-- a whole number -/
def integer? : List Char → Option Int
  | '0' :: 'x' :: cs => (ungroup isHexDigit cs).map fun digits => Int.ofNat (ofDigits 16 digits)
  | '0' :: 'o' :: cs => (ungroup isOctalDigit cs).map fun digits => Int.ofNat (ofDigits 8 digits)
  | '0' :: 'b' :: cs => (ungroup isBinaryDigit cs).map fun digits => Int.ofNat (ofDigits 2 digits)
  | cs => do
    let (negative, body) := splitSign cs
    let n := Int.ofNat (ofDigits 10 (← decimalDigits? body))
    return if negative then -n else n

/-- whether a whole number is among those a reader can hold: 128 bits, with or without a sign -/
def isHoldable (n : Int) : Bool :=
  -0x80000000000000000000000000000000 ≤ n && n < 0x100000000000000000000000000000000

/-- whether a character marks an exponent -/
def isExponentMark (c : Char) : Bool := c == 'e' || c == 'E'

/-- whether a group that is being read, so far up to a character, ends well, and so do the groups behind it: an
underscore is before each of them, and the characters next to an underscore are digits to base sixteen -/
def endsGroups (last : Char) : List Char → Bool
  | [] => true
  | ['_'] => false
  | '_' :: c :: rest => isHexDigit last && isHexDigit c && endsGroups c rest
  | c :: rest => endsGroups c rest

/-- whether some text is groups with an underscore before each -/
def areGroups : List Char → Bool
  | '_' :: c :: rest => isHexDigit c && endsGroups c rest
  | _ => false

/-- whether some text has the form of a whole number, though it is none: a base without digits, or a decimal number
with digits of other bases behind an underscore -/
def isHollow : List Char → Bool
  | ['0', 'x'] | ['0', 'o'] | ['0', 'b'] => true
  | cs =>
    let body := (splitSign cs).2
    let groups := body.dropWhile Char.isDigit
    body.head?.any (fun c => c.isDigit && c ≠ '0') && areGroups groups &&
      groups.all fun c => c ≠ '.' && !isExponentMark c

/-! ### Fractions -/

/-- a decimal fraction without its sign: its digits, and the power of ten that multiplies them -/
structure Decimal where
  digits : List Char
  exponent : Int

/-- the number behind an exponent mark -/
def exponent? (cs : List Char) : Option Int := do
  let (negative, body) := splitSign cs
  let n := Int.ofNat (ofDigits 10 (← ungroup Char.isDigit body))
  return if negative then -n else n

/-- a number with a fraction or an exponent -/
def decimal? (cs : List Char) : Option Decimal := do
  let (mantissa, mark) := (splitSign cs).2.span fun c => !isExponentMark c
  let (whole, point) := mantissa.span (· ≠ '.')
  let digits ← decimalDigits? whole
  let exponent ← if mark.isEmpty then some 0 else exponent? (mark.drop 1)
  match point with
  | _ :: fraction => do
    let fraction ← ungroup Char.isDigit fraction
    return ⟨digits ++ fraction, exponent - Int.ofNat fraction.length⟩
  | [] => if mark.isEmpty then none else some ⟨digits, exponent⟩

/-- the least number that is closer to the power of two behind the doubles than to any double -/
def beyondDoubles : Nat := 0x3FFFFFFFFFFFFF <<< 970

/-- how many decimal digits that number has -/
def beyondDoublesDigits : Nat := 309

/-- whether a number is too large for a double; only its leading digits are compared, for the bound is whole -/
def Decimal.isBeyondDoubles (d : Decimal) : Bool :=
  let digits := d.digits.dropWhile (· = '0')
  let places := Int.ofNat digits.length + d.exponent
  let leading := (digits ++ List.replicate beyondDoublesDigits '0').take beyondDoublesDigits
  !digits.isEmpty &&
    (places > beyondDoublesDigits || (places = beyondDoublesDigits && ofDigits 10 leading ≥ beyondDoubles))

/-- whether some text stands for an infinite number, or for no number at all -/
def isSpecial (cs : List Char) : Bool :=
  let body := (splitSign cs).2
  body = ['i', 'n', 'f'] || body = ['n', 'a', 'n']

/-! ## Times -/

/-- whether two digits write a number of at most some size -/
def isPair (limit : Nat) (a b : Char) : Bool := (Timestamp.number? [a, b]).any fun n => n ≤ limit

/-- whether some text is a day of the calendar -/
def isDate : List Char → Bool
  | [y1, y2, y3, y4, '-', m1, m2, '-', d1, d2] =>
    match Timestamp.number? [y1, y2, y3, y4], Timestamp.number? [m1, m2], Timestamp.number? [d1, d2] with
    | some year, some month, some day => 1 ≤ day && day ≤ Timestamp.daysIn year month
    | _, _, _ => false
  | _ => false

/-- what is left of some text behind a time of day, which may end at the minute -/
def afterClock? : List Char → Option (List Char)
  | h1 :: h2 :: ':' :: m1 :: m2 :: rest =>
    if isPair 23 h1 h2 && isPair 59 m1 m2 then
      match rest with
      | ':' :: s1 :: s2 :: rest =>
        if isPair 60 s1 s2 then
          match rest with
          | '.' :: rest =>
            if (rest.takeWhile Char.isDigit).isEmpty then none else some (rest.dropWhile Char.isDigit)
          | _ => some rest
        else none
      | _ => some rest
    else none
  | _ => none

/-- whether some text is a time of day -/
def isClock (cs : List Char) : Bool := afterClock? cs = some []

/-- whether some text is a distance from universal time -/
def isOffset : List Char → Bool
  | ['Z'] | ['z'] => true
  | [sign, h1, h2, ':', m1, m2] => (sign == '+' || sign == '-') && isPair 23 h1 h2 && isPair 59 m1 m2
  | _ => false

/-- whether some text is a day, a time of day, or both, the latter with or without a distance from universal time -/
def isTime (cs : List Char) : Bool :=
  isClock cs || isDate cs ||
    (isDate (cs.take 10) &&
      match cs.drop 10 with
      | mark :: clock =>
        (mark == 'T' || mark == 't' || mark == ' ') &&
          (afterClock? clock).any fun rest => rest.isEmpty || isOffset rest
      | [] => false)

/-! ## Any scalar -/

/-- the number that some text writes -/
def number? (cs : List Char) : Option Value :=
  match integer? cs, decimal? cs with
  | some n, _ => some (if isHoldable n then .int n else .unholdable)
  | none, some d => some (if d.isBeyondDoubles then .unholdable else .float)
  | none, none => if isSpecial cs then some .float else if isHollow cs then some .unholdable else none

/-- the value that some text without quotes writes -/
def scalar? (cs : List Char) : Option Value :=
  if cs = "true".toList then some (.bool true)
  else if cs = "false".toList then some (.bool false)
  else (number? cs).or (if isTime cs then some .time else none)

end SharedBuffer.Toml
