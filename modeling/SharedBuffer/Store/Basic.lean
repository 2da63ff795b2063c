/-
The object store: records under keys, in key order, and the allocators that hand out the keys.

Nothing is created by looking it up, and nothing is overwritten by an insertion. An operation that changes the store is
an action that keeps whatever it changed before it failed (`StoreM`).
-/
import SharedBuffer.Fault
import SharedBuffer.Store.Allocator
import SharedBuffer.Store.KeyMap

namespace SharedBuffer

/-- why the store refuses an operation -/
inductive StoreError where
  | duplicateKey (key : Key)
  | notFound (key : Key)
  | exhausted (kind : ObjectKind)
  | refCountUnderflow (key : Key)
deriving DecidableEq

namespace StoreError

/-- the name of the cause -/
def label : StoreError → String
  | duplicateKey _ => "DuplicateKey"
  | notFound _ => "NotFound"
  | exhausted _ => "Exhausted"
  | refCountUnderflow _ => "RefCountUnderflow"

/-- the text of a store error -/
def message : StoreError → String
  | duplicateKey key => "Duplicate key " ++ key.label
  | notFound key => "Key not found " ++ key.label
  | exhausted kind => "Object index space exhausted for " ++ kind.name
  | refCountUnderflow key => "Reference count underflow on " ++ key.label

/-- the fault a store error is reported as -/
def toFault : StoreError → Fault
  | duplicateKey key => .alreadyExists key.label
  | notFound key => .notFound key.label
  | exhausted kind => .insufficientResources ("no free " ++ kind.name ++ " handles")
  | refCountUnderflow key => .invalidParameter ("reference count underflow on " ++ key.label)

end StoreError

/-- records in key order and the allocators of their handles -/
structure Store (R : Type) where
  records : KeyMap R := KeyMap.empty
  allocators : PerKind Allocator := PerKind.const {}

/-- an operation on a store that may fail; what it changed before it failed stays changed -/
abbrev StoreM (R : Type) := ExceptT StoreError (StateM (Store R))

namespace Store

variable {R : Type}

/-! ## Reading -/

/-- the number of records of all kinds -/
def size (s : Store R) : Nat := s.records.size

/-- whether a key has a record -/
def contains (s : Store R) (k : Key) : Bool := s.records.contains k

/-- the record of a key -/
def get? (s : Store R) (k : Key) : Option R := s.records.get? k

/-- the record of a key that has to have one -/
def get (s : Store R) (k : Key) : Except StoreError R :=
  match s.get? k with
  | some r => .ok r
  | none => .error (.notFound k)

/-- the smallest key -/
def first? (s : Store R) : Option Key := s.records.first?

/-- the smallest key above a given one, which need not have a record -/
def next? (s : Store R) (k : Key) : Option Key := s.records.next? k

/-- the entries of all kinds, ascending -/
def entries (s : Store R) : List (Key × R) := s.records.entries

/-- the entries filed under one kind, ascending -/
def ofKind (s : Store R) (kind : ObjectKind) : List (Key × R) :=
  s.records.between ⟨kind, 0⟩ ⟨kind, 0xFFFFFFFFFFFFFFFF⟩

/-- the number of records filed under one kind -/
def countKind (s : Store R) (kind : ObjectKind) : Nat := (s.ofKind kind).length

/-! ## Changing -/

/-- puts a record under a key that has none -/
def insert (k : Key) (r : R) : StoreM R Unit := ExceptT.mk fun s =>
  if s.contains k then (.error (.duplicateKey k), s)
  else (.ok (), { s with records := s.records.insert k r })

/-- the store without the record of a key, if it has one -/
def remove (s : Store R) (k : Key) : Store R := { s with records := s.records.erase k }

/-- changes the record of a key -/
def modify (k : Key) (f : R → R) : StoreM R Unit := ExceptT.mk fun s =>
  if s.contains k then (.ok (), { s with records := s.records.modify k f })
  else (.error (.notFound k), s)

/-- hands out a handle of a kind -/
def allocate (kind : ObjectKind) : StoreM R Key := ExceptT.mk fun s =>
  match (s.allocators.get kind).take? with
  | some ((index, generation), rest) =>
    (.ok (Key.make kind generation index), { s with allocators := s.allocators.set kind rest })
  | none => (.error (.exhausted kind), s)

/-- hands out a handle of a kind and puts a record under it -/
def insertNew (kind : ObjectKind) (r : R) : StoreM R Key := do
  let k ← allocate kind
  insert k r
  return k

/-- takes back a handle; one that still has a record is left alone -/
def release (s : Store R) (k : Key) : Store R :=
  if s.contains k then s
  else { s with allocators := s.allocators.set k.kind ((s.allocators.get k.kind).give k.index k.generation) }

theorem get?_remove (s : Store R) (k j : Key) :
    (s.remove k).get? j = if j = k then none else s.get? j := KeyMap.get?_erase s.records k j

theorem get?_release (s : Store R) (k j : Key) : (s.release k).get? j = s.get? j := by
  unfold release
  split <;> rfl

end Store

end SharedBuffer
