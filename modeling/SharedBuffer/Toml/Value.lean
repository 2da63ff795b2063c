/-
TOML values, and tables as they grow while a document is read.

A table remembers how it came into being, because that decides who may add to it: a header defines a table once, a
table that only stands on the way to another may still be defined, dotted keys add to tables made by dotted keys, and
an inline table is closed.
-/
import SharedBuffer.Text.Json

namespace SharedBuffer.Toml

/-- how a table came into being -/
inductive Origin where
  /-- defined by a header -/
  | header
  /-- on the way of a header to another table -/
  | implied
  /-- made by a dotted key -/
  | dotted
  /-- written between braces -/
  | inline
deriving DecidableEq

/-- whether a table was never defined in its own right -/
def Origin.isImplicit : Origin → Bool
  | implied | dotted => true
  | header | inline => false

/-- a TOML value; of fractions and times only that they are one is kept -/
inductive Value where
  | str (s : String)
  | int (n : Int)
  | float
  /-- a number in a correct form that nothing can hold: too large, or without digits of its base -/
  | unholdable
  | bool (b : Bool)
  | time
  | array (items : List Value)
  /-- a list of tables made by headers between double brackets -/
  | tables (items : List (Origin × List (String × Value)))
  | table (origin : Origin) (entries : List (String × Value))
deriving Inhabited

namespace Value

mutual

/-- whether every number in a value can be held -/
def isHoldable : Value → Bool
  | unholdable => false
  | str _ | int _ | float | bool _ | time => true
  | array items => allHoldable items
  | tables items => allTablesHoldable items
  | table _ entries => allEntriesHoldable entries

/-- whether every number in some values can be held -/
def allHoldable : List Value → Bool
  | [] => true
  | v :: rest => v.isHoldable && allHoldable rest

/-- whether every number in some entries can be held -/
def allEntriesHoldable : List (String × Value) → Bool
  | [] => true
  | (_, v) :: rest => v.isHoldable && allEntriesHoldable rest

/-- whether every number in some tables can be held -/
def allTablesHoldable : List (Origin × List (String × Value)) → Bool
  | [] => true
  | (_, entries) :: rest => allEntriesHoldable entries && allTablesHoldable rest

end

end Value

/-- a table with its origin -/
abbrev Table := Origin × List (String × Value)

namespace Table

/-- the value of a key -/
def get? (t : Table) (key : String) : Option Value := t.2.lookup key

/-- puts a value under a key of a list of entries, in the place of an old one or at the end -/
def putEntry (key : String) (v : Value) : List (String × Value) → List (String × Value)
  | [] => [(key, v)]
  | (k, w) :: rest => if k = key then (key, v) :: rest else (k, w) :: putEntry key v rest

/-- puts a value under a key -/
def put (t : Table) (key : String) (v : Value) : Table := (t.1, putEntry key v t.2)

/-- changes the table at the end of a path; tables on the way that do not exist come into being -/
def descend (byDots : Bool) (change : Table → Option Table) : List String → Table → Option Table
  | [], t => change t
  | key :: path, t =>
    match t.get? key with
    | none => do
      let child ← descend byDots change path (if byDots then .dotted else .implied, [])
      return t.put key (.table child.1 child.2)
    | some (.table origin entries) =>
      if origin = .inline || (byDots && !origin.isImplicit) then none
      else do
        let child ← descend byDots change path (origin, entries)
        return t.put key (.table child.1 child.2)
    | some (.tables items) =>
      match items.getLast? with
      | none => none
      | some last => do
        let child ← descend byDots change path last
        return t.put key (.tables (items.dropLast ++ [child]))
    | some _ => none

/-- adds a value under a key that has none; the table has to have been made the way the key is written -/
def addNew (isDottedKey : Bool) (key : String) (v : Value) (t : Table) : Option Table :=
  if (t.1 = .dotted) ≠ isDottedKey then none
  else if (t.get? key).isSome then none
  else some (t.put key v)

/-- adds a value under a path of keys -/
def add (t : Table) (path : List String) (key : String) (v : Value) : Option Table :=
  descend true (addNew (!path.isEmpty) key v) path t

/-- defines the table under a path of keys -/
def define (t : Table) (path : List String) (key : String) : Option Table :=
  descend false (fun parent =>
    match parent.get? key with
    | none => some (parent.put key (.table .header []))
    | some (.table .implied entries) => some (parent.put key (.table .header entries))
    | some _ => none) path t

/-- adds a table to the list of tables under a path of keys -/
def append (t : Table) (path : List String) (key : String) : Option Table :=
  descend false (fun parent =>
    match parent.get? key with
    | none => some (parent.put key (.tables [(.header, [])]))
    | some (.tables items) => some (parent.put key (.tables (items ++ [(.header, [])])))
    | some _ => none) path t

/-- adds a value inside the table that a header has opened -/
def addUnder (t : Table) (header : List String) (path : List String) (key : String) (v : Value) : Option Table :=
  descend false (fun opened => opened.add path key v) header t

end Table

end SharedBuffer.Toml
