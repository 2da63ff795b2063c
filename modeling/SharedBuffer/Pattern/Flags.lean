/-
How a regular expression is read from some place on, and what may stand there.

Expressions match text, and none may cut a character. Where an expression is about characters, it may use what is known
of them without tables: no case is ignored, no class has a name of one letter, and no place is between words. Where it
is about bytes, all these are those of ASCII; but nothing may match a byte that is only a part of a character.
-/

namespace SharedBuffer.Pattern

/-- how an expression is read -/
structure Flags where
  /-- whether letters of either case are alike -/
  ignoreCase : Bool := false
  /-- whether the expression is about characters rather than bytes -/
  characters : Bool := true
  /-- whether white space and comments are passed over -/
  verbose : Bool := false
deriving DecidableEq

/-- what a character in an expression, or several behind a backslash, stand for -/
inductive Atom where
  /-- a character, which may have been written as a byte -/
  | literal (c : Char) (isByte : Bool)
  /-- a class with a name of one letter, or all that is outside it -/
  | short (negated : Bool)
  /-- a place between or beside words -/
  | wordPlace
  /-- an end of the text -/
  | textEnd
deriving DecidableEq

namespace Flags

/-- whether a character is of ASCII -/
def isAscii (c : Char) : Bool := c.toNat < 128

/-- whether the dot may stand for what it matches -/
def allowsDot (f : Flags) : Bool := f.characters

/-- whether a class may be all that is outside it -/
def allowsNegation (f : Flags) : Bool := f.characters

/-- whether a class of ASCII with a name, or all that is outside it, may be used -/
def allowsNamed (f : Flags) (negated : Bool) : Bool := if f.characters then !f.ignoreCase else !negated

/-- whether an atom may stand on its own -/
def allows (f : Flags) : Atom → Bool
  | .literal c isByte => if f.characters then !f.ignoreCase else !isByte || isAscii c
  | .short negated => !f.characters && !negated
  | .wordPlace => !f.characters
  | .textEnd => true

/-- whether an atom may stand in a class -/
def allowsInClass (f : Flags) : Atom → Bool
  | .literal c _ => if f.characters then !f.ignoreCase else isAscii c
  | .short negated => !f.characters && !negated
  | .wordPlace | .textEnd => false

/-- the flags behind a list of letters, those behind a minus sign switched off; letters without a field change nothing
here -/
def change (f : Flags) (on : Bool) : List Char → Flags
  | [] => f
  | '-' :: rest => f.change false rest
  | 'i' :: rest => { f with ignoreCase := on }.change on rest
  | 'u' :: rest => { f with characters := on }.change on rest
  | 'x' :: rest => { f with verbose := on }.change on rest
  | _ :: rest => f.change on rest

/-- the letters that switch something -/
def letters : List Char := ['i', 'm', 's', 'U', 'u', 'R', 'x']

/-- the flags behind a list of letters, each at most once, and one minus sign at most, which is not the last -/
def changeBy? (f : Flags) (cs : List Char) : Option Flags :=
  if cs.all (fun c => c = '-' || letters.contains c) && cs.Nodup && cs.getLast? ≠ some '-' then
    some (f.change true cs)
  else none

end Flags

/-! ## Outlines -/

/-- what is remembered of an expression: how deep it is nested, and the names of its groups -/
structure Outline where
  depth : Nat := 0
  names : List (List Char) := []
deriving DecidableEq

namespace Outline

/-- an expression inside another -/
def nest (o : Outline) : Outline := { o with depth := o.depth + 1 }

/-- several expressions as one; only two or more make a level of their own -/
def join : List Outline → Outline
  | [] => {}
  | [o] => o
  | os => ⟨(os.map depth).foldr max 0 + 1, os.flatMap names⟩

end Outline

end SharedBuffer.Pattern
