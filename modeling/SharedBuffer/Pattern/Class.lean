/-
Single characters, escapes and classes between brackets of a regular expression.

A class is a list of characters, ranges and further classes, or several such lists with `&&`, `--` or `~~` between.
-/
import SharedBuffer.Pattern.Flags
import SharedBuffer.Text.CharClass
import SharedBuffer.Text.Hex
import SharedBuffer.Text.Reader

namespace SharedBuffer.Pattern

open Reader

/-- goes on only if something holds -/
def require (holds : Bool) : Reader Unit := if holds then pure () else failure

/-! ## White space and comments -/

/-- what is left behind white space and comments -/
def dropIgnored (inComment : Bool) : List Char → List Char
  | [] => []
  | c :: rest =>
    if inComment then dropIgnored (c ≠ '\n') rest
    else if c = '#' then dropIgnored true rest
    else if isWhite c then dropIgnored false rest
    else c :: rest

/-- takes white space and comments where they are passed over -/
def skip (f : Flags) : Reader Unit := do
  if f.verbose then set (dropIgnored false (← get))

/-- the character behind white space where that is passed over; of a comment only the mark is -/
def glance? (f : Flags) (cs : List Char) : Option Char :=
  if f.verbose then
    match cs.dropWhile isWhite with
    | '#' :: rest => (rest.dropWhile isWhite).head?
    | rest => rest.head?
  else cs.head?

/-! ## Escapes -/

/-- takes digits to base sixteen -/
def hexDigits (f : Flags) : Nat → Reader (List Char)
  | 0 => do
    skip f
    return []
  | n + 1 => do
    skip f
    let c ← next
    require (isHexDigit c)
    return c :: (← hexDigits f n)

/-- takes the code of a character -/
def code (f : Flags) (digits : Nat) (isByte : Bool) : Reader Atom := do
  let n := ofDigits 16 (← hexDigits f digits)
  require n.isValidChar
  return .literal (Char.ofNat n) isByte

/-- takes what a backslash stands for, behind it -/
def escape (f : Flags) : Reader Atom := do
  match ← next with
  | 'x' => code f 2 true
  | 'u' => code f 4 false
  | 'U' => code f 8 false
  | 'd' | 's' | 'w' => return .short false
  | 'D' | 'S' | 'W' => return .short true
  | 'b' | 'B' | '<' | '>' => return .wordPlace
  | 'A' | 'z' => return .textEnd
  | 'a' => return .literal (Char.ofNat 7) false
  | 't' => return .literal '\t' false
  | 'n' => return .literal '\n' false
  | 'v' => return .literal (Char.ofNat 11) false
  | 'f' => return .literal (Char.ofNat 12) false
  | 'r' => return .literal '\r' false
  | c =>
    require (Flags.isAscii c && !c.isAlphanum)
    return .literal c false

/-! ## Classes -/

/-- takes one character of a class -/
def classAtom (f : Flags) : Reader Atom := do
  match ← next with
  | '\\' => escape f
  | c => return .literal c false

/-- takes one character of a class, or a range; a minus sign in front of a bracket or of another one starts none -/
def classItem (f : Flags) : Reader Unit := do
  let first ← classAtom f
  skip f
  match ← get with
  | '-' :: rest =>
    if glance? f rest = some ']' || glance? f rest = some '-' then require (f.allowsInClass first)
    else
      set rest
      skip f
      match first, ← classAtom f with
      | .literal a isByte, .literal b isByte' =>
        require (a ≤ b && f.allowsInClass (.literal a isByte) && f.allowsInClass (.literal b isByte'))
      | _, _ => failure
  | _ => require (f.allowsInClass first)

/-- the names of classes of ASCII -/
def classNames : List String :=
  ["alnum", "alpha", "ascii", "blank", "cntrl", "digit", "graph", "lower", "print", "punct", "space", "upper", "word",
    "xdigit"]

/-- whether a class of ASCII with a name is next, which is negated or not, and what is left behind it -/
def namedClass? : List Char → Option (Bool × List Char)
  | '[' :: ':' :: cs =>
    let (negated, cs) := match cs with
      | '^' :: cs => (true, cs)
      | _ => (false, cs)
    match cs.dropWhile (· ≠ ':') with
    | ':' :: ']' :: rest =>
      if classNames.contains (String.ofList (cs.takeWhile (· ≠ ':'))) then some (negated, rest) else none
    | _ => none
  | _ => none

/-- the depth of items of a class side by side -/
def itemsDepth (items : List Nat) : Nat := (Outline.join (items.map fun depth => ⟨depth, []⟩)).depth

/-- the depth of what an operator has on its left side, if it has, with items on its right side -/
def operatorDepth (left : Option Nat) (items : List Nat) : Nat :=
  match left with
  | none => itemsDepth items
  | some depth => max depth (itemsDepth items) + 1

/-- takes an operator between classes, if one is next -/
def acceptOperator : Reader Bool := do
  if ← accept ['&', '&'] then return true
  else if ← accept ['-', '-'] then return true
  else accept ['~', '~']

/-- takes the rest of a class up to its end, classes inside it with a reader for them; what is before the place is the
left side of an operator, and the depths of items -/
def classRest (f : Flags) (inner : Reader Nat) : Nat → Option Nat → List Nat → Reader Nat
  | 0, _, _ => failure
  | rounds + 1, left, items => do
    skip f
    if ← accept [']'] then return operatorDepth left items + 1
    else if ← acceptOperator then classRest f inner rounds (some (operatorDepth left items)) []
    else
      match ← peek?, namedClass? (← get) with
      | _, some (negated, rest) =>
        require (f.allowsNamed negated)
        set rest
        classRest f inner rounds left (0 :: items)
      | some '[', none => do
        let _ ← next
        classRest f inner rounds left ((← inner) :: items)
      | _, _ => do
        classItem f
        classRest f inner rounds left (0 :: items)

/-- takes the minus signs at the start of a class, and counts them -/
def leadingMinuses (f : Flags) : Nat → Reader Nat
  | 0 => return 0
  | rounds + 1 => do
    if ← accept ['-'] then
      skip f
      return (← leadingMinuses f rounds) + 1
    else return 0

/-- takes the start of a class behind its bracket, where minus signs and a closing bracket are characters of it; their
number -/
def classStart (f : Flags) (rounds : Nat) : Reader Nat := do
  skip f
  if ← accept ['^'] then
    require f.allowsNegation
    skip f
  let minuses ← leadingMinuses f rounds
  if minuses = 0 then
    if ← accept [']'] then return 1
  return minuses

/-- takes a class behind its bracket, with classes inside it so deep; its depth -/
def classBody (f : Flags) (rounds : Nat) : Nat → Reader Nat
  | 0 => failure
  | depth + 1 => do
    let items ← classStart f rounds
    require (items = 0 || f.allowsInClass (.literal '-' false))
    classRest f (classBody f rounds depth) rounds none (List.replicate items 0)

end SharedBuffer.Pattern
