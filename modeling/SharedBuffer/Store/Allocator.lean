/-
Handing out handles: one allocator of indexes for each kind of object.

An index that comes back is handed out again before any new one, the latest first, under the next generation. An index
whose generations are used up is never handed out again.
-/
import SharedBuffer.Object.Key

namespace SharedBuffer

/-- the indexes of one kind: the next that was never used, and those that came back -/
structure Allocator where
  next : UInt32 := 0
  /-- (index, generation of its next handle), the latest first -/
  free : List (UInt32 × UInt16) := []
deriving DecidableEq

namespace Allocator

/-- hands out an index with its generation, unless every index is in use -/
def take? (a : Allocator) : Option ((UInt32 × UInt16) × Allocator) :=
  match a.free with
  | slot :: rest => some (slot, { a with free := rest })
  | [] => if a.next.toNat + 1 < UInt32.size then some ((a.next, 0), { a with next := a.next + 1 }) else none

/-- takes back an index that was handed out under a generation; one that was never handed out, or is back already, is
left alone -/
def give (a : Allocator) (index : UInt32) (generation : UInt16) : Allocator :=
  if a.next ≤ index ∨ index ∈ a.free.map Prod.fst then a
  else if generation.toNat + 1 < UInt16.size then { a with free := (index, generation + 1) :: a.free }
  else a

end Allocator

/-- one value for each kind of object -/
structure PerKind (α : Type) where
  port : α
  queue : α
  pool : α
  profile : α
  priorityGroup : α
  switch : α
deriving DecidableEq

namespace PerKind

variable {α : Type}

/-- the same value for every kind -/
def const (a : α) : PerKind α := ⟨a, a, a, a, a, a⟩

/-- the value of a kind -/
def get (p : PerKind α) : ObjectKind → α
  | .port => p.port
  | .queue => p.queue
  | .pool => p.pool
  | .profile => p.profile
  | .priorityGroup => p.priorityGroup
  | .switch => p.switch

/-- puts a value for one kind -/
def set (p : PerKind α) (k : ObjectKind) (a : α) : PerKind α :=
  match k with
  | .port => { p with port := a }
  | .queue => { p with queue := a }
  | .pool => { p with pool := a }
  | .profile => { p with profile := a }
  | .priorityGroup => { p with priorityGroup := a }
  | .switch => { p with switch := a }

theorem get_set (p : PerKind α) (k j : ObjectKind) (a : α) :
    (p.set k a).get j = if j = k then a else p.get j := by
  cases k <;> cases j <;> rfl

theorem get_const (a : α) (k : ObjectKind) : (const a).get k = a := by cases k <;> rfl

end PerKind

end SharedBuffer
