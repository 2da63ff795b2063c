/-
The kinds of switch object that take part in buffer management, with their codes and names.

The codes are those of the switch abstraction interface (SAI). They also give the order of the kinds: a store sorted
by key keeps each kind in one contiguous stretch.
-/

namespace SharedBuffer

/-- what an object of the switch is -/
inductive ObjectKind where
  | port
  | queue
  | pool
  | profile
  | priorityGroup
  | switch
deriving DecidableEq

namespace ObjectKind

/-- every kind, in the order of the codes -/
def all : List ObjectKind := [port, queue, pool, profile, priorityGroup, switch]

/-- the code of a kind inside an object id -/
def code : ObjectKind → Nat
  | port => 1
  | queue => 21
  | pool => 24
  | profile => 25
  | priorityGroup => 26
  | switch => 33

/-- the kind with a given code -/
def ofCode? (n : Nat) : Option ObjectKind := all.find? (fun k => k.code == n)

/-- the short name, as it stands in front of an id -/
def label : ObjectKind → String
  | port => "Port"
  | queue => "Queue"
  | pool => "BufferPool"
  | profile => "BufferProfile"
  | priorityGroup => "IngressPriorityGroup"
  | switch => "Switch"

/-- the name the switch interface gives to a kind -/
def name : ObjectKind → String
  | port => "SAI_OBJECT_TYPE_PORT"
  | queue => "SAI_OBJECT_TYPE_QUEUE"
  | pool => "SAI_OBJECT_TYPE_BUFFER_POOL"
  | profile => "SAI_OBJECT_TYPE_BUFFER_PROFILE"
  | priorityGroup => "SAI_OBJECT_TYPE_INGRESS_PRIORITY_GROUP"
  | switch => "SAI_OBJECT_TYPE_SWITCH"

theorem code_lt (k : ObjectKind) : k.code < 256 := by cases k <;> decide

theorem code_inj {a b : ObjectKind} (h : a.code = b.code) : a = b := by
  cases a <;> cases b <;> first | rfl | exact absurd h (by decide)

theorem ofCode?_code (k : ObjectKind) : ofCode? k.code = some k := by cases k <;> rfl

theorem code_of_ofCode? {n : Nat} {k : ObjectKind} (h : ofCode? n = some k) : k.code = n := by
  simpa using List.find?_some h

end ObjectKind

end SharedBuffer
