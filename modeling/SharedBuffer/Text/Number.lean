/-
Which texts are numbers, with a fraction or without.
-/

namespace SharedBuffer

/-- whether some text is decimal digits -/
def isDecimal (cs : List Char) : Bool := !cs.isEmpty && cs.all Char.isDigit

/-- some text without the sign in front of it, if one is -/
def dropSign : List Char → List Char
  | '+' :: rest | '-' :: rest => rest
  | cs => cs

/-- whether some text is a number with a sign or without: digits with a point and an exponent, infinite, or none -/
def isNumber (cs : List Char) : Bool :=
  let body := (dropSign cs).map Char.toLower
  let (mantissa, mark) := body.span (· ≠ 'e')
  ["inf", "infinity", "nan"].any (·.toList == body) ||
    (isDecimal (mantissa.erase '.') && (mark.isEmpty || isDecimal (dropSign (mark.drop 1))))

end SharedBuffer
