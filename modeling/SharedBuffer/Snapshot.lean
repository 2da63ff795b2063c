/-
What is shown of an object, and how it is written.

A snapshot is taken of the record under a key. Its fields and their order are those of the reports; links are shown as
the owner's id, lists as their length or their members.
-/
import SharedBuffer.Accounting
import SharedBuffer.Text.Json

namespace SharedBuffer

/-- an amount as a number -/
def Json.amount (n : UInt64) : Json := .nat n.toNat

/-- a count or index as a number -/
def Json.count (n : UInt32) : Json := .nat n.toNat

/-- a threshold as its mode and its value -/
def Threshold.toJson (t : Threshold) : Json :=
  .obj [("mode", .str t.mode.name),
    ("value", match t with
      | .static limit => .amount limit
      | .dynamic alpha => .int alpha.toInt)]

/-- what is shown of a pool -/
structure PoolSnapshot where
  id : ObjectId
  direction : Direction
  mode : ThresholdMode
  size : UInt64
  sharedSize : UInt64
  tileReserved : List UInt64
  tilesTotalReserved : UInt64
  profileCount : UInt32
deriving DecidableEq

namespace PoolSnapshot

/-- the snapshot of a pool under a key -/
def of (k : Key) (p : Pool) : PoolSnapshot :=
  ⟨k.id, p.direction, p.mode, p.size, p.sharedSize, p.tileReserved, p.tilesTotalReserved, p.profiles.length⟩

/-- the fields of a pool snapshot -/
def fields (p : PoolSnapshot) : List (String × Json) :=
  [("oid", .amount p.id), ("pool_type", .str p.direction.name), ("threshold_mode", .str p.mode.name),
    ("size", .amount p.size), ("shared_size", .amount p.sharedSize),
    ("tile_reserved", .arr (p.tileReserved.map .amount)),
    ("tiles_total_reserved_size", .amount p.tilesTotalReserved), ("profile_count", .count p.profileCount)]

end PoolSnapshot

/-- what is shown of a profile -/
structure ProfileSnapshot where
  id : ObjectId
  pool : ObjectId
  size : UInt64
  mode : ProfileMode
  effectiveMode : ThresholdMode
  threshold : Threshold
  xoff : UInt64
  xon : UInt64
  referenceCount : UInt32
  consumers : List ObjectId
deriving DecidableEq

namespace ProfileSnapshot

/-- the fields of a profile snapshot -/
def fields (p : ProfileSnapshot) : List (String × Json) :=
  [("oid", .amount p.id), ("pool", .amount p.pool), ("size", .amount p.size), ("threshold_mode", .str p.mode.name),
    ("effective_mode", .str p.effectiveMode.name), ("threshold", p.threshold.toJson),
    ("xoff_threshold", .amount p.xoff), ("xon_threshold", .amount p.xon),
    ("reference_count", .count p.referenceCount), ("consumers", .arr (p.consumers.map .amount))]

end ProfileSnapshot

/-- what is shown of a priority group or a queue -/
structure SubqueueSnapshot where
  id : ObjectId
  port : ObjectId
  index : UInt32
  profile : Option ObjectId
deriving DecidableEq

namespace SubqueueSnapshot

/-- the snapshot of a priority group or queue under a key; the null id stands for a missing port -/
def of (k : Key) (q : Subqueue) : SubqueueSnapshot :=
  ⟨k.id, q.portLink.elim nullId fun l => l.owner.id, q.index, q.profileLink.map fun l => l.owner.id⟩

/-- the fields of a priority group or queue snapshot -/
def fields (q : SubqueueSnapshot) : List (String × Json) :=
  [("oid", .amount q.id), ("port", .amount q.port), ("index", .count q.index),
    ("profile", .ofOption .amount q.profile)]

end SubqueueSnapshot

/-- what is shown of a port -/
structure PortSnapshot where
  id : ObjectId
  hardwareNumber : UInt32
  tile : UInt32
  priorityGroups : UInt32
  queues : UInt32
  profile : Option ObjectId
deriving DecidableEq

namespace PortSnapshot

/-- the snapshot of a port under a key -/
def of (k : Key) (p : Port) : PortSnapshot :=
  ⟨k.id, p.hardwareNumber, p.tile, p.priorityGroups.length, p.queues.length, p.profileLink.map fun l => l.owner.id⟩

/-- the fields of a port snapshot -/
def fields (p : PortSnapshot) : List (String × Json) :=
  [("oid", .amount p.id), ("hw_port_number", .count p.hardwareNumber), ("tile", .count p.tile),
    ("priority_groups", .count p.priorityGroups), ("queues", .count p.queues),
    ("profile", .ofOption .amount p.profile)]

end PortSnapshot

/-- what is shown of an object of any kind -/
inductive Snapshot where
  | port (p : PortSnapshot)
  | queue (q : SubqueueSnapshot)
  | pool (p : PoolSnapshot)
  | profile (p : ProfileSnapshot)
  | priorityGroup (g : SubqueueSnapshot)
deriving DecidableEq

namespace Snapshot

/-- the object a snapshot was taken of -/
def id : Snapshot → ObjectId
  | port p => p.id
  | queue q => q.id
  | pool p => p.id
  | profile p => p.id
  | priorityGroup g => g.id

/-- a snapshot as an object that starts with the kind it is of -/
def toJson : Snapshot → Json
  | port p => .obj (("object_type", .str "port") :: p.fields)
  | queue q => .obj (("object_type", .str "queue") :: q.fields)
  | pool p => .obj (("object_type", .str "buffer_pool") :: p.fields)
  | profile p => .obj (("object_type", .str "buffer_profile") :: p.fields)
  | priorityGroup g => .obj (("object_type", .str "ingress_priority_group") :: g.fields)

end Snapshot

/-! ## Taking snapshots -/

namespace Store

/-- the pool a profile belongs to, for a request that needs it -/
def poolOfProfile (k : Key) (p : Profile) : Except Fault Key :=
  match p.pool? with
  | some pool => .ok pool
  | none => .error (.notFound ("pool of buffer profile " ++ k.text))

/-- the snapshot of a profile under a key -/
def profileSnapshotOf (s : Store Record) (k : Key) (p : Profile) : Except Fault ProfileSnapshot := do
  let pool ← poolOfProfile k p
  let poolMode := (← s.poolAt pool).mode
  let consumers ← s.requireMembers .profileConsumers k
  return ⟨k.id, pool.id, p.size, p.mode, p.mode.effective poolMode, p.threshold, p.xoff, p.xon, p.refCount,
    consumers.map Key.id⟩

/-- the snapshot of a pool -/
def poolSnapshot (s : Store Record) (k : Key) : Except Fault PoolSnapshot := do
  return .of k (← s.poolAt k)

/-- the snapshot of a profile -/
def profileSnapshot (s : Store Record) (k : Key) : Except Fault ProfileSnapshot := do
  s.profileSnapshotOf k (← s.profileAt k)

/-- the snapshot of an object, by the record under its key -/
def snapshot (s : Store Record) (k : Key) : Except Fault Snapshot := do
  match ← s.require k with
  | .pool p => return .pool (.of k p)
  | .profile p => return .profile (← s.profileSnapshotOf k p)
  | .priorityGroup g => return .priorityGroup (.of k g)
  | .queue q => return .queue (.of k q)
  | .port p => return .port (.of k p)

/-- the snapshots met by a scan that has come to a cursor, at most so many -/
def dumpFrom (s : Store Record) : Nat → Option Key → List Snapshot
  | 0, _ => []
  | _, none => []
  | n + 1, some k => (s.snapshot k).toOption.toList ++ s.dumpFrom n (s.next? k)

/-- the snapshots of all objects, in key order; an object that cannot be shown is passed over -/
def dump (s : Store Record) : List Snapshot := s.dumpFrom s.size s.first?

end Store

end SharedBuffer
