/-
Taking typed values out of TOML values.

A record is a table with its fields by name, a list with its fields in order, or a time, which has none of the fields
asked for. Fields of a table that nobody asks for are passed over, but their numbers have to be ones that can be held;
elements of a list behind the last field are not looked at. A choice is its name alone, or a table with that name over
something empty.
-/
import SharedBuffer.Text.ByName
import SharedBuffer.Toml.Value

namespace SharedBuffer.Toml

namespace Value

/-- a whole number from zero up to a bound, which is left out -/
def natBelow? (bound : Nat) : Value → Option Nat
  | int n => if 0 ≤ n && n < Int.ofNat bound then some n.toNat else none
  | _ => none

/-- a number of 32 bits -/
def u32? (v : Value) : Option UInt32 := (v.natBelow? UInt32.size).map UInt32.ofNat

/-- a number of 64 bits -/
def u64? (v : Value) : Option UInt64 := (v.natBelow? UInt64.size).map UInt64.ofNat

/-- a signed number of 8 bits -/
def i8? : Value → Option Int8
  | int n => if -128 ≤ n && n ≤ 127 then some (Int8.ofInt n) else none
  | _ => none

/-- a text -/
def text? : Value → Option String
  | str s => some s
  | _ => none

/-- a truth value -/
def bool? : Value → Option Bool
  | bool b => some b
  | _ => none

/-- a list of values of one type -/
def list? {α : Type} (element : Value → Option α) : Value → Option (List α)
  | array items => items.mapM element
  | tables items => items.mapM fun (origin, entries) => element (.table origin entries)
  | _ => none

/-- whether a value holds nothing -/
def isEmpty : Value → Bool
  | array [] | tables [] | table _ [] => true
  | _ => false

/-- the name of a choice -/
def name? : Value → Option String
  | str s => some s
  | table _ [(name, v)] => if v.isEmpty then some name else none
  | _ => none

/-- the fields of a record, given the names of its fields in order -/
def fields? (names : List String) : Value → Option (List (String × Value))
  | table _ entries =>
    if entries.all fun (name, v) => names.contains name || v.isHoldable then some entries else none
  | array items => some (names.zip items)
  | tables items => some (names.zip (items.map fun (origin, entries) => .table origin entries))
  | time => some []
  | _ => none

/-- the values of a table with a name for each, in order of the names -/
def byName? {α : Type} (element : Value → Option α) : Value → Option (List (String × α))
  | table _ entries => do
    return sortByName (← entries.mapM fun (name, v) => (element v).map fun a => (name, a))
  | _ => none

end Value

/-- a field that may be missing -/
def optionalField? {α : Type} (fields : List (String × Value)) (name : String) (decode : Value → Option α) :
    Option (Option α) :=
  match fields.lookup name with
  | none => some none
  | some v => (decode v).map some

/-- a field that stands for a given value where it is missing -/
def fieldOr? {α : Type} (fields : List (String × Value)) (name : String) (decode : Value → Option α)
    (missing : α) : Option α :=
  (optionalField? fields name decode).map fun found => found.getD missing

/-- a field that must not be missing -/
def requiredField? {α : Type} (fields : List (String × Value)) (name : String) (decode : Value → Option α) :
    Option α :=
  (fields.lookup name).bind decode

end SharedBuffer.Toml
