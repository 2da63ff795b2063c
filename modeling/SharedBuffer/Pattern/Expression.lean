/-
Regular expressions: which texts are one.

An expression is branches with bars between, a branch pieces side by side, and a piece a character, a class, a place or
a group, which may be repeated. Flags between parentheses hold up to the end of the group that they stand in. Counted
repetition is not understood. An expression is nested at most so deep, and no two of its groups have one name.
-/
import SharedBuffer.Pattern.Class

namespace SharedBuffer

namespace Pattern

open Reader

/-- how deep an expression may be nested -/
def maxDepth : Nat := 250

/-! ## Groups -/

/-- whether a character may stand in the name of a group -/
def isNameChar (c : Char) : Bool := c == '_' || c == '.' || c == '[' || c == ']' || isLetterOrDigit c

/-- takes the name of a group, up to the bracket behind it -/
def groupName : Reader (List Char) := do
  let name ← takeWhile isNameChar
  expect '>'
  match name with
  | c :: _ =>
    require (c = '_' || isLetter c)
    return name
  | [] => failure

/-- what starts at a parenthesis: flags for what follows, or a group with flags of its own and perhaps a name -/
inductive Opening where
  | flags (f : Flags)
  | group (f : Flags) (name : Option (List Char))

/-- takes letters of flags, and the mark behind them -/
def flagsOpening (f : Flags) : Reader Opening := do
  let letters ← takeWhile fun c => c ≠ ':' && c ≠ ')'
  match f.changeBy? letters, ← next with
  | some f, ':' => return .group f none
  | some f, _ => if letters.isEmpty then failure else return .flags f
  | none, _ => failure

/-- takes what is behind a parenthesis -/
def opening (f : Flags) : Reader Opening := do
  skip f
  if ← accept ['?', 'P', '<'] then return .group f (some (← groupName))
  else if ← accept ['?', '<'] then return .group f (some (← groupName))
  else if ← accept ['?'] then flagsOpening f
  else return .group f none

/-! ## Pieces -/

/-- a piece of a branch, and whether it may be repeated: flags may not -/
structure Piece where
  outline : Outline := {}
  isRepeatable : Bool := true

/-- pieces, the last one first, with the last one repeated -/
def repeatLast : List Piece → Option (List Piece)
  | piece :: pieces => if piece.isRepeatable then some (⟨piece.outline.nest, true⟩ :: pieces) else none
  | [] => none

/-- pieces as one branch -/
def branch (pieces : List Piece) : Outline := Outline.join (pieces.map Piece.outline)

/-- takes a piece that is a single character, a class or a place, given the character it starts with -/
def simplePiece (f : Flags) (rounds : Nat) : Char → Reader Piece
  | '[' => do return { outline := { depth := ← classBody f rounds maxDepth } }
  | '\\' => do
    require (f.allows (← escape f))
    return {}
  | '.' => do
    require f.allowsDot
    return {}
  | '^' | '$' => return {}
  | '\x7b' => failure
  | c => do
    require (f.allows (.literal c false))
    return {}

/-- whether a character repeats what is before it -/
def isRepeat (c : Char) : Bool := c == '*' || c == '+' || c == '?'

/-- takes branches up to the end of their group, groups inside it with a reader for them; `pieces` are those of the
branch before the place, the last one first, and `branches` the ones before -/
def branchesWith (inner : Flags → Reader Outline) (size : Nat) :
    Nat → Flags → (branches : List Outline) → (pieces : List Piece) → Reader Outline
  | 0, _, _, _ => failure
  | rounds + 1, f, branches, pieces => do
    skip f
    match ← peek? with
    | none | some ')' => return Outline.join (branch pieces :: branches)
    | some c => do
      let _ ← next
      if c = '|' then branchesWith inner size rounds f (branch pieces :: branches) []
      else if isRepeat c then do
        let _ ← accept ['?']
        let pieces ← (repeatLast pieces).elim failure pure
        branchesWith inner size rounds f branches pieces
      else if c = '(' then do
        match ← opening f with
        | .flags f => branchesWith inner size rounds f branches (⟨{}, false⟩ :: pieces)
        | .group g name => do
          let o ← inner g
          expect ')'
          let piece : Piece := { outline := { o.nest with names := name.toList ++ o.names } }
          branchesWith inner size rounds f branches (piece :: pieces)
      else do
        let piece ← simplePiece f size c
        branchesWith inner size rounds f branches (piece :: pieces)

/-- takes branches with groups inside them so deep -/
def branches (size : Nat) : Nat → Flags → Reader Outline
  | 0, f => branchesWith (fun _ => failure) size size f [] []
  | depth + 1, f => branchesWith (branches size depth) size size f [] []

end Pattern

/-- whether some text is a regular expression -/
def isPattern (cs : List Char) : Bool :=
  match (Pattern.branches (cs.length + 1) Pattern.maxDepth {}).run cs with
  | some (o, []) => o.depth ≤ Pattern.maxDepth && o.names.Nodup
  | _ => false

end SharedBuffer
