/-
Lists of named values in order of their names, each name once.
-/

namespace SharedBuffer

/-- puts a named value in its place, over one of the same name -/
def putByName {α : Type} (name : String) (value : α) : List (String × α) → List (String × α)
  | [] => [(name, value)]
  | (n, v) :: rest =>
    if name < n then (name, value) :: (n, v) :: rest
    else if name = n then (name, value) :: rest
    else (n, v) :: putByName name value rest

/-- named values in order of their names; of one name given twice the later value stays -/
def sortByName {α : Type} (entries : List (String × α)) : List (String × α) :=
  entries.foldl (fun sorted (name, value) => putByName name value sorted) []

end SharedBuffer
