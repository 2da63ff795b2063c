/-
Reading a TOML document.

Loops take a number of rounds that the length of the text bounds, and nesting takes a depth.
-/
import SharedBuffer.Text.Reader
import SharedBuffer.Toml.Scalar

namespace SharedBuffer.Toml

namespace Reader

open SharedBuffer.Reader

/-! ## Blanks, line ends and comments -/

/-- whether a character separates words on a line -/
def isBlank (c : Char) : Bool := c == ' ' || c == '\t'

/-- whether a character may stand in a comment or a string: no control character but the tab -/
def isPlain (c : Char) : Bool := c == '\t' || (32 ≤ c.toNat && c.toNat ≠ 127)

/-- takes blanks -/
def skipBlanks : Reader Unit := do let _ ← takeWhile isBlank

/-- takes the end of a line, if it is next -/
def acceptLineEnd : Reader Bool := do
  if ← accept ['\n'] then return true
  else accept ['\r', '\n']

/-- takes a comment, if one is next -/
def skipComment : Reader Unit := do
  if ← accept ['#'] then
    let _ ← takeWhile isPlain

/-- takes blanks, comments and line ends -/
def skipSpace : Nat → Reader Unit
  | 0 => pure ()
  | rounds + 1 => do
    skipBlanks
    skipComment
    if ← acceptLineEnd then skipSpace rounds

/-- takes what may stand between a value and the end of its line -/
def endLine : Reader Unit := do
  skipBlanks
  skipComment
  if (← get).isEmpty then return
  if !(← acceptLineEnd) then failure

/-! ## Strings -/

/-- the character that so many digits to base sixteen name -/
def codePoint (digits : Nat) : Reader Char := do
  let cs ← get
  let code := cs.take digits
  let n := ofDigits 16 code
  if code.length = digits && code.all isHexDigit && n.isValidChar then
    set (cs.drop digits)
    return Char.ofNat n
  else failure

/-- the character that an escape stands for, behind the backslash -/
def escape : Reader Char := do
  match ← next with
  | 'b' => return Char.ofNat 8
  | 't' => return '\t'
  | 'n' => return '\n'
  | 'f' => return Char.ofNat 12
  | 'r' => return '\r'
  | 'e' => return Char.ofNat 27
  | '"' => return '"'
  | '\\' => return '\\'
  | 'x' => codePoint 2
  | 'u' => codePoint 4
  | 'U' => codePoint 8
  | _ => failure

/-- the rest of a string between double quotes -/
def basicRest : Nat → Reader (List Char)
  | 0 => failure
  | rounds + 1 => do
    match ← next with
    | '"' => return []
    | '\\' => do
      let c ← escape
      return c :: (← basicRest rounds)
    | c => if isPlain c then return c :: (← basicRest rounds) else failure

/-- the rest of a string between single quotes -/
def literalRest : Reader (List Char) := do
  let cs ← takeWhile fun c => isPlain c && c ≠ '\''
  expect '\''
  return cs

/-- takes a run of quotes inside a string of many lines: those of its text, and whether the string ends -/
def quoteRun (quote : Char) : Reader (List Char × Bool) := do
  let run ← takeWhile (· == quote)
  if run.length < 3 then return (run, false)
  else if run.length ≤ 5 then return (run.drop 3, true)
  else failure

/-- takes a line end inside a string of many lines, which belongs to its text -/
def lineEndText : Reader (List Char) := do
  if ← accept ['\n'] then return ['\n']
  else if ← accept ['\r', '\n'] then return ['\r', '\n']
  else failure

/-- takes blanks and line ends -/
def skipWhite : Nat → Reader Unit
  | 0 => pure ()
  | rounds + 1 => do
    skipBlanks
    if ← acceptLineEnd then skipWhite rounds

/-- takes what follows a backslash in a string of many lines: an escape, or blank text up to the next word -/
def continuation (rounds : Nat) : Reader (List Char) := do
  let cs ← get
  match cs.dropWhile isBlank with
  | '\n' :: _ | '\r' :: '\n' :: _ =>
    skipWhite rounds
    return []
  | _ => return [← escape]

/-- the rest of a string of many lines -/
def multilineRest (quote : Char) : Nat → Reader (List Char)
  | 0 => failure
  | rounds + 1 => do
    match ← peek? with
    | none => failure
    | some c =>
      if c = quote then
        let (text, isEnd) ← quoteRun quote
        if isEnd then return text else return text ++ (← multilineRest quote rounds)
      else if c = '\\' && quote = '"' then
        let _ ← next
        let text ← continuation (rounds + 1)
        return text ++ (← multilineRest quote rounds)
      else if isPlain c then
        let _ ← next
        return c :: (← multilineRest quote rounds)
      else return (← lineEndText) ++ (← multilineRest quote rounds)

/-- the text of a string of many lines, whose first line end does not count -/
def multiline (quote : Char) (rounds : Nat) : Reader String := do
  let _ ← acceptLineEnd
  return String.ofList (← multilineRest quote rounds)

/-- a string on one line -/
def lineString (quote : Char) (rounds : Nat) : Reader String := do
  if quote = '"' then return String.ofList (← basicRest rounds)
  else return String.ofList (← literalRest)

/-! ## Keys -/

/-- whether a character may stand in a key without quotes -/
def isBare (c : Char) : Bool := c.isAlphanum || c == '_' || c == '-'

/-- one part of a key -/
def keyPart (rounds : Nat) : Reader String := do
  match ← peek? with
  | some '"' => do
    let _ ← next
    lineString '"' rounds
  | some '\'' => do
    let _ ← next
    lineString '\'' rounds
  | _ => do
    let cs ← takeWhile isBare
    if cs.isEmpty then failure else return String.ofList cs

/-- how many parts a key may have, and how deep lists and inline tables may be nested -/
def maxDepth : Nat := 80

/-- a key of at most so many parts: those before the last, and the last -/
def keyOf (rounds : Nat) : Nat → Reader (List String × String)
  | 0 => failure
  | parts + 1 => do
    skipBlanks
    let part ← keyPart rounds
    skipBlanks
    if ← accept ['.'] then
      let (path, last) ← keyOf rounds parts
      return (part :: path, last)
    else return ([], part)

/-- a key of one or more parts -/
def key (rounds : Nat) : Reader (List String × String) := keyOf rounds maxDepth

/-! ## Values -/

/-- whether a character ends a scalar without quotes -/
def isDelimiter (c : Char) : Bool := " \t\n\r#,=[]\x7b\x7d".toList.contains c

/-- a scalar without quotes; one blank may stand between a day and a time of day -/
def bareScalar : Reader Value := do
  let word ← takeWhile fun c => !isDelimiter c
  let cs ← get
  match isDate word, cs with
  | true, ' ' :: c :: _ =>
    if c.isDigit then
      let _ ← next
      let clock ← takeWhile fun c => !isDelimiter c
      (scalar? (word ++ ' ' :: clock)).elim failure pure
    else (scalar? word).elim failure pure
  | _, _ => (scalar? word).elim failure pure

/-- a string between quotes of a kind, of one line or of many -/
def quoted (quote : Char) (rounds : Nat) : Reader Value := do
  if ← accept [quote, quote, quote] then return .str (← multiline quote rounds)
  else
    let _ ← next
    return .str (← lineString quote rounds)

/-- the elements of a list behind its bracket, read with a reader of values -/
def arrayRest (value : Reader Value) (rounds : Nat) : Nat → Reader (List Value)
  | 0 => failure
  | n + 1 => do
    skipSpace rounds
    if ← accept [']'] then return []
    let v ← value
    skipSpace rounds
    if ← accept [','] then return v :: (← arrayRest value rounds n)
    expect ']'
    return [v]

/-- the entries of an inline table behind its brace, read with a reader of values and added to those before -/
def inlineRest (value : Reader Value) (rounds : Nat) : Nat → Table → Reader Table
  | 0, _ => failure
  | n + 1, t => do
    skipSpace rounds
    if ← accept ['\x7d'] then return t
    let (path, last) ← key rounds
    skipSpace rounds
    expect '='
    skipSpace rounds
    let v ← value
    let t ← (t.add path last v).elim failure pure
    skipSpace rounds
    if ← accept [','] then inlineRest value rounds n t
    else
      expect '\x7d'
      return t

/-- a value; the elements of lists and tables are read with `inner`, where nesting is still allowed -/
def valueWith (rounds : Nat) (inner : Option (Reader Value)) : Reader Value := do
  match ← peek?, inner with
  | some '"', _ => quoted '"' rounds
  | some '\'', _ => quoted '\'' rounds
  | some '[', some inner => do
    let _ ← next
    return .array (← arrayRest inner rounds rounds)
  | some '\x7b', some inner => do
    let _ ← next
    let t ← inlineRest inner rounds rounds (.inline, [])
    return .table .inline t.2
  | some '[', none | some '\x7b', none => failure
  | _, _ => bareScalar

/-- a value that may hold lists and inline tables so deep -/
def value (rounds : Nat) : Nat → Reader Value
  | 0 => valueWith rounds none
  | depth + 1 => valueWith rounds (some (value rounds depth))

/-! ## Documents -/

/-- takes a header between brackets: its key, and whether it adds to a list of tables -/
def header (rounds : Nat) : Reader (List String × String × Bool) := do
  expect '['
  let isList ← accept ['[']
  let (path, last) ← key rounds
  expect ']'
  if isList then expect ']'
  return (path, last, isList)

/-- reads line after line into a table; `opened` is the path of the last header -/
def lines (rounds : Nat) : Nat → (opened : List String) → Table → Reader Table
  | 0, _, _ => failure
  | n + 1, opened, t => do
    skipBlanks
    match ← peek? with
    | none => return t
    | some '[' => do
      let (path, last, isList) ← header rounds
      let t ← (if isList then t.append path last else t.define path last).elim failure pure
      endLine
      lines rounds n (path ++ [last]) t
    | some c =>
      if c = '#' || c = '\n' || c = '\r' then
        endLine
        lines rounds n opened t
      else do
        let (path, last) ← key rounds
        expect '='
        skipBlanks
        let v ← value rounds maxDepth
        let t ← (t.addUnder opened path last v).elim failure pure
        endLine
        lines rounds n opened t

end Reader

/-- the mark that may stand before the first line -/
def byteOrderMark : Char := Char.ofNat 0xFEFF

/-- the table that a document writes -/
def parse? (text : String) : Option Value :=
  let cs := text.toList
  let cs := if cs.head? = some byteOrderMark then cs.drop 1 else cs
  let rounds := cs.length + 1
  ((Reader.lines rounds rounds [] (.header, [])).run cs).map fun (t, _) => .table t.1 t.2

end SharedBuffer.Toml
