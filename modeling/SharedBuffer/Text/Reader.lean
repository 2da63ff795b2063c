/-
Readers: a reader takes characters off the front of a text, or fails; all failures are alike.
-/

namespace SharedBuffer

/-- a reader of something from the front of a text -/
abbrev Reader := StateT (List Char) Option

namespace Reader

/-- the next character, which stays -/
def peek? : Reader (Option Char) := do return (← get).head?

/-- takes the next character -/
def next : Reader Char := do
  match ← get with
  | c :: rest =>
    set rest
    return c
  | [] => failure

/-- takes a character that has to be the given one -/
def expect (c : Char) : Reader Unit := do
  if (← next) ≠ c then failure

/-- takes some text, if it is next -/
def accept (text : List Char) : Reader Bool := do
  let cs ← get
  if text.isPrefixOf cs then
    set (cs.drop text.length)
    return true
  else return false

/-- takes characters as long as they pass -/
def takeWhile (p : Char → Bool) : Reader (List Char) := do
  let cs ← get
  set (cs.dropWhile p)
  return cs.takeWhile p

end Reader

end SharedBuffer
