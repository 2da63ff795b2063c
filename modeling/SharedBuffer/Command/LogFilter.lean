/-
Which log lines are written.

A filter is a list of directives between commas. A directive is a level, the start of a target's name, or both with an
equals sign between; behind the name there may be brackets with a span and a field. Of the directives that fit an event
the one with the longest name decides, of two with one name the one that asks for a field, of two such the one whose
field comes later in the alphabet, and of two alike the later. Directives that are not understood are passed over; where
none is left, errors are written.

White space around a directive is passed over while its places are counted, but its parts are cut from the text with
the white space. Places are counted in bytes, so a cut may fall inside a character.
-/
import SharedBuffer.Pattern.Expression
import SharedBuffer.Plan.ConsumerKey
import SharedBuffer.Text.Number

namespace SharedBuffer.Command

/-! ## Levels -/

/-- how much is written -/
inductive LogLevel where
  | off
  | error
  | warn
  | info
  | debug
  | trace
deriving DecidableEq

namespace LogLevel

/-- every level, the quietest first -/
def all : List LogLevel := [off, error, warn, info, debug, trace]

/-- the name of a level -/
def name : LogLevel → String
  | off => "off"
  | error => "error"
  | warn => "warn"
  | info => "info"
  | debug => "debug"
  | trace => "trace"

/-- the level that a text names, in letters of either case or as its number -/
def ofText? (cs : List Char) : Option LogLevel :=
  match decimalU32? cs with
  | some n => all[n.toNat]?
  | none => all.find? fun level => level.name.toList == cs.map Char.toLower

/-- whether errors are written at a level -/
def showsErrors (level : LogLevel) : Bool := level ≠ off

end LogLevel

/-! ## Directives -/

/-- what a filter knows of a log line -/
structure LogEvent where
  target : String
  fields : List String
deriving DecidableEq

/-- one rule of a filter: for which events it is, and the level for them -/
structure Directive where
  /-- what the target's name starts with -/
  target : List Char := []
  /-- a field that the event has -/
  field : Option String := none
  /-- whether it is only for what happens inside a span, or for a value that a span records -/
  needsSpan : Bool := false
  level : LogLevel := .trace
deriving DecidableEq

namespace Directive

/-- whether a directive is for an event outside all spans -/
def fits (e : LogEvent) (d : Directive) : Bool :=
  !d.needsSpan && d.target.isPrefixOf e.target.toList && d.field.all e.fields.contains

/-- whether a field is asked for where none is, or one later in the alphabet than the other -/
def fieldExceeds : Option String → Option String → Bool
  | some a, some b => b < a
  | some _, none => true
  | none, _ => false

/-- the directive that decides between one found so far and a later one -/
def moreSpecific (found : Option Directive) (d : Directive) : Option Directive :=
  match found with
  | none => some d
  | some f =>
    if d.target.length < f.target.length then some f
    else if d.target.length = f.target.length && fieldExceeds f.field d.field then some f
    else some d

end Directive

/-! ## Cutting -/

/-- a text without so many bytes at its start; none if they end inside a character -/
def dropBytes? : Nat → List Char → Option (List Char)
  | 0, cs => some cs
  | _ + 1, [] => none
  | n + 1, c :: cs => if c.utf8Size ≤ n + 1 then dropBytes? (n + 1 - c.utf8Size) cs else none

/-- so many bytes at the start of a text; none if they end inside a character -/
def takeBytes? : Nat → List Char → Option (List Char)
  | 0, _ => some []
  | _ + 1, [] => none
  | n + 1, c :: cs =>
    if c.utf8Size ≤ n + 1 then (takeBytes? (n + 1 - c.utf8Size) cs).map (c :: ·) else none

/-- why a directive is not taken -/
inductive Refusal where
  /-- it is not understood -/
  | notUnderstood
  /-- a cut falls inside a character -/
  | splitCharacter
deriving DecidableEq

/-- the part of a text between two places -/
def cut (text : List Char) (first last : Nat) : Except Refusal (List Char) :=
  match (takeBytes? last text).bind (dropBytes? first) with
  | some part => .ok part
  | none => .error .splitCharacter

/-- the part of a text behind a place -/
def cutRest (text : List Char) (first : Nat) : Except Refusal (List Char) :=
  match dropBytes? first text with
  | some part => .ok part
  | none => .error .splitCharacter

/-! ## Reading -/

/-- where the reader of a directive stands; a place is where the part that is being read starts -/
inductive Stand where
  | start
  /-- in a level or in a target's name -/
  | word (place : Nat)
  /-- in a span's name, behind the bracket -/
  | span (place : Nat)
  /-- in a field, behind the brace -/
  | field (place : Nat)
  /-- behind the closing brace -/
  | fieldEnd
  /-- behind the closing bracket -/
  | spanEnd
  /-- in a level, behind the equals sign -/
  | level (place : Nat)
deriving DecidableEq

namespace Directive

/-- adds what is asked of a field to a directive: that an event has it, or its value in a span -/
def withField (d : Directive) (cs : List Char) : Except Refusal Directive :=
  match splitAtFirst '=' cs with
  | none => if cs.isEmpty then .error .notUnderstood else .ok { d with field := some (String.ofList cs) }
  | some (_, value) =>
    let value := value.takeWhile (· ≠ '=')
    if isNumber value || isPattern value then .ok { d with needsSpan := true } else .error .notUnderstood

/-- whether a directive may start with a character -/
def isWordStart (c : Char) : Bool := c == '-' || c == ':' || c == '_' || isLetterOrDigit c

/-- takes one character, at a place, into a directive -/
def step (text : List Char) (stand : Stand) (d : Directive) (place : Nat) (c : Char) :
    Except Refusal (Stand × Directive) :=
  match stand with
  | .start =>
    if c = '[' then .ok (.span (place + 1), d)
    else if isWordStart c then .ok (.word place, d)
    else .error .notUnderstood
  | .word first =>
    if c = '=' then do return (.level (place + 1), { d with target := ← cut text first place })
    else if c = '[' then do return (.span (place + 1), { d with target := ← cut text first place })
    else .ok (stand, d)
  | .span first =>
    if c = ']' then do
      let _ ← cut text first place
      return (.spanEnd, { d with needsSpan := true })
    else if c = '\x7b' then do
      let name ← cut text first place
      return (.field (place + 1), { d with needsSpan := !name.isEmpty })
    else .ok (stand, d)
  | .field first =>
    if c = '\x7d' then do return (.fieldEnd, ← d.withField (← cut text first place)) else .ok (stand, d)
  | .fieldEnd => if c = ']' then .ok (.spanEnd, d) else .error .notUnderstood
  | .spanEnd => if c = '=' then .ok (.level (place + 1), d) else .error .notUnderstood
  | .level _ => .ok (stand, d)

/-- takes characters into a directive, the first of them at a place -/
def steps (text : List Char) : Stand → Directive → Nat → List Char → Except Refusal (Stand × Directive)
  | stand, d, _, [] => .ok (stand, d)
  | stand, d, place, c :: rest => do
    let (stand, d) ← step text stand d place c
    steps text stand d (place + c.utf8Size) rest

/-- ends a directive where its text ends -/
def finish (text : List Char) (stand : Stand) (d : Directive) : Except Refusal Directive :=
  match stand with
  | .word first => do
    let word ← cutRest text first
    match LogLevel.ofText? word with
    | some level => return { d with level }
    | none => return { d with target := word }
  | .level first => do
    let word ← cutRest text first
    if word.isEmpty then return d
    match LogLevel.ofText? word with
    | some level => return { d with level }
    | none => .error .notUnderstood
  | .spanEnd => .ok d
  | .start | .span _ | .field _ | .fieldEnd => .error .notUnderstood

/-- reads a directive -/
def ofText (text : List Char) : Except Refusal Directive := do
  let (stand, d) ← steps text .start {} 0 (trimWhite text)
  finish text stand d

end Directive

/-! ## Filters -/

/-- the texts between commas, empty ones left out -/
def splitAtCommas (cs : List Char) : List (List Char) :=
  (cs.foldr (fun c parts =>
    match parts with
    | part :: rest => if c = ',' then [] :: part :: rest else (c :: part) :: rest
    | [] => []) [[]]).filter fun part => !part.isEmpty

/-- what decides which log lines are written -/
abbrev LogFilter := List Directive

namespace LogFilter

/-- the directives of some texts that are understood; none if a cut falls inside a character -/
def ofParts? : List (List Char) → Option LogFilter
  | [] => some []
  | part :: rest =>
    match Directive.ofText part with
    | .ok d => (ofParts? rest).map (d :: ·)
    | .error .notUnderstood => ofParts? rest
    | .error .splitCharacter => none

/-- reads a filter; none if a cut falls inside a character -/
def ofText? (text : String) : Option LogFilter := ofParts? (splitAtCommas text.toList)

/-- whether a filter lets an event through that is an error -/
def showsError (filter : LogFilter) (e : LogEvent) : Bool :=
  if filter.isEmpty then true
  else ((filter.filter (·.fits e)).foldl Directive.moreSpecific none).any (·.level.showsErrors)

end LogFilter

end SharedBuffer.Command
