/-
JSON values without fractions, and their texts.

Numbers are integers of any size; an object keeps its fields in the order they were given. Two texts are written: the
compact one, without any blank, and the indented one, two blanks to a level, where an empty list or object takes no
line of its own. A string escapes the quote, the backslash and the control characters below a blank, and nothing else.
-/
import SharedBuffer.Text.ByName
import SharedBuffer.Text.Hex

namespace SharedBuffer

/-- a JSON value whose numbers are integers -/
inductive Json where
  | null
  | bool (b : Bool)
  | int (n : Int)
  | str (s : String)
  | arr (items : List Json)
  | obj (fields : List (String × Json))
deriving Inhabited

namespace Json

/-- a natural number -/
def nat (n : Nat) : Json := .int (Int.ofNat n)

/-- a value that may be absent, written as null where it is -/
def ofOption {α : Type} (f : α → Json) : Option α → Json
  | some a => f a
  | none => .null

/-- the value of a field of an object -/
def field? (name : String) : Json → Option Json
  | .obj fields => fields.lookup name
  | _ => none

/-! ## Strings -/

/-- the escape of a character inside a string -/
def escapeChar (c : Char) : String :=
  if c = '"' then "\\\""
  else if c = '\\' then "\\\\"
  else if c = '\n' then "\\n"
  else if c = '\r' then "\\r"
  else if c = '\t' then "\\t"
  else if c.toNat = 8 then "\\b"
  else if c.toNat = 12 then "\\f"
  else if c.toNat < 32 then
    "\\u00" ++ String.ofList (List.replicate (2 - (Nat.toDigits 16 c.toNat).length) '0') ++ hexDigits c.toNat
  else c.toString

/-- a string in quotes -/
def quote (s : String) : String := "\"" ++ String.join (s.toList.map escapeChar) ++ "\""

/-! ## Texts -/

mutual
/-- the text without blanks -/
def compact : Json → String
  | .null => "null"
  | .bool b => if b then "true" else "false"
  | .int n => toString n
  | .str s => quote s
  | .arr items => "[" ++ String.intercalate "," (compactItems items) ++ "]"
  | .obj fields => "\x7b" ++ String.intercalate "," (compactFields fields) ++ "\x7d"

/-- the texts of the elements of a list -/
def compactItems : List Json → List String
  | [] => []
  | item :: rest => item.compact :: compactItems rest

/-- the texts of the fields of an object -/
def compactFields : List (String × Json) → List String
  | [] => []
  | (name, value) :: rest => (quote name ++ ":" ++ value.compact) :: compactFields rest
end

/-- the start of a line at some depth -/
def indentation (depth : Nat) : String := "\n" ++ String.ofList (List.replicate (2 * depth) ' ')

/-- elements between brackets, a line each, or the brackets alone -/
def block (depth : Nat) (opening closing : String) (lines : List String) : String :=
  if lines.isEmpty then opening ++ closing
  else
    opening ++ indentation (depth + 1) ++ String.intercalate ("," ++ indentation (depth + 1)) lines ++
      indentation depth ++ closing

mutual
/-- the indented text of a value that stands at some depth -/
def indentedAt (depth : Nat) : Json → String
  | .arr items => block depth "[" "]" (indentedItems (depth + 1) items)
  | .obj fields => block depth "\x7b" "\x7d" (indentedFields (depth + 1) fields)
  | .null => "null"
  | .bool b => if b then "true" else "false"
  | .int n => toString n
  | .str s => quote s

/-- the indented texts of the elements of a list -/
def indentedItems (depth : Nat) : List Json → List String
  | [] => []
  | item :: rest => item.indentedAt depth :: indentedItems depth rest

/-- the indented texts of the fields of an object -/
def indentedFields (depth : Nat) : List (String × Json) → List String
  | [] => []
  | (name, value) :: rest => (quote name ++ ": " ++ value.indentedAt depth) :: indentedFields depth rest
end

/-- the indented text of a value -/
def indented (j : Json) : String := j.indentedAt 0

/-! ## Fields in order of their names -/

mutual
/-- the same value with the fields of every object in order of their names -/
def sorted : Json → Json
  | .arr items => .arr (sortedItems items)
  | .obj fields => .obj (sortedFields [] fields)
  | .null => .null
  | .bool b => .bool b
  | .int n => .int n
  | .str s => .str s

/-- the elements of a list, each sorted -/
def sortedItems : List Json → List Json
  | [] => []
  | item :: rest => item.sorted :: sortedItems rest

/-- the fields of an object, put one by one into those `done` -/
def sortedFields (done : List (String × Json)) : List (String × Json) → List (String × Json)
  | [] => done
  | (name, value) :: rest => sortedFields (putByName name value.sorted done) rest
end

end Json

end SharedBuffer
