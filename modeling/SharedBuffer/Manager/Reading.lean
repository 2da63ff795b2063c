/-
Reading attributes, and the views of the whole manager.

The attributes of a get request are filled in one after the other, up to the first that cannot be. A list is filled in
only if it fits the count that came with it; if not, the count becomes the number of elements there are.
-/
import SharedBuffer.Manager.Request

namespace SharedBuffer

/-- how a read of one attribute ends: the attribute as it is then, and a fault if it was not filled in -/
abbrev ReadResult := Attribute × Option Fault

namespace ReadResult

/-- the attribute filled in with a value -/
def filled (a : Attribute) (v : AttributeValue) : ReadResult := ({ a with value := v }, none)

/-- the attribute left as it was -/
def refused (a : Attribute) (fault : Fault) : ReadResult := (a, some fault)

end ReadResult

/-- fills a counted list, or empties it and states the room it needs -/
def fillList (index : Nat) (request : CountedList) (items : List UInt64) : CountedList × Option Fault :=
  let needed := UInt32.ofNat items.length
  if request.count < needed then (⟨needed, []⟩, some (.bufferOverflow (UInt32.ofNat index) needed))
  else (.ofItems items, none)

/-- fills an attribute with a list of objects -/
def fillObjects (index : Nat) (a : Attribute) (ids : List ObjectId) : ReadResult :=
  match a.value with
  | .objectList request =>
    let (list, fault) := fillList index request ids
    ({ a with value := .objectList list }, fault)
  | _ => .refused a (.badValueAt index "expected an object list")

/-- fills an attribute with a list of amounts -/
def fillAmounts (index : Nat) (a : Attribute) (amounts : List UInt64) : ReadResult :=
  match a.value with
  | .u64List request =>
    let (list, fault) := fillList index request amounts
    ({ a with value := .u64List list }, fault)
  | _ => .refused a (.badValueAt index "expected a u64 list")

/-- the id behind an optional key, or the null id -/
def idOrNull (k : Option Key) : ObjectId := k.elim nullId Key.id

/-- reads an attribute of a pool -/
def readPool (p : Pool) (index : Nat) (a : Attribute) : ReadResult :=
  match PoolAttribute.ofId? a.id with
  | some .sharedSize => .filled a (.u64 p.sharedSize)
  | some .direction => .filled a (.s32 p.direction.code)
  | some .size => .filled a (.u64 p.size)
  | some .thresholdMode => .filled a (.s32 p.mode.code)
  | some .tilesTotalReserved => .filled a (.u64 p.tilesTotalReserved)
  | some .tileReserved => fillAmounts index a p.tileReserved
  | none => .refused a (.unknownAt index)

/-- fills an attribute with the members of an owner's list -/
def readMembers (s : Store Record) (roster : Roster) (owner : Key) (index : Nat) (a : Attribute) : ReadResult :=
  match s.requireMembers roster owner with
  | .ok members => fillObjects index a (members.map Key.id)
  | .error fault => .refused a fault

/-- reads an attribute of a profile; the threshold of the mode it is not in reads as zero -/
def readProfile (s : Store Record) (k : Key) (p : Profile) (index : Nat) (a : Attribute) : ReadResult :=
  match ProfileAttribute.ofId? a.id with
  | some .poolId => .filled a (.oid (idOrNull p.pool?))
  | some .reservedSize => .filled a (.u64 p.size)
  | some .thresholdMode => .filled a (.s32 p.mode.code)
  | some .dynamicThreshold => .filled a (.i8 (match p.threshold with
    | .dynamic alpha => alpha
    | .static _ => 0))
  | some .staticThreshold => .filled a (.u64 (match p.threshold with
    | .static limit => limit
    | .dynamic _ => 0))
  | some .xoffThreshold => .filled a (.u64 p.xoff)
  | some .xonThreshold => .filled a (.u64 p.xon)
  | some .referenceCount => .filled a (.u32 p.refCount)
  | some .consumerList => readMembers s .profileConsumers k index a
  | none => .refused a (.unknownAt index)

/-- reads an attribute of a priority group or a queue; a group filed under another kind is read as a queue -/
def readSubqueue (kind : ObjectKind) (q : Subqueue) (index : Nat) (a : Attribute) : ReadResult :=
  let port : AttributeValue := .oid (idOrNull (q.portLink.map Link.owner))
  let profile : AttributeValue := .oid (idOrNull (q.profileLink.map Link.owner))
  if kind = .priorityGroup then
    match PriorityGroupAttribute.ofId? a.id with
    | some .profile => .filled a profile
    | some .port => .filled a port
    | some .index => .filled a (.u32 q.index)
    | none => .refused a (.unknownAt index)
  else
    match QueueAttribute.ofId? a.id with
    | some .profile => .filled a profile
    | some .port => .filled a port
    | some .index => .filled a (.u32 q.index)
    | none => .refused a (.unknownAt index)

/-- reads an attribute of a port -/
def readPort (s : Store Record) (k : Key) (p : Port) (index : Nat) (a : Attribute) : ReadResult :=
  match PortAttribute.ofId? a.id with
  | some .hardwareNumber => .filled a (.u32 p.hardwareNumber)
  | some .groupCount => .filled a (.u32 p.priorityGroups.length)
  | some .groupList => readMembers s .portPriorityGroups k index a
  | some .queueCount => .filled a (.u32 p.queues.length)
  | some .queueList => readMembers s .portQueues k index a
  | some .ingressProfile => .filled a (.oid (idOrNull (p.profileLink.map Link.owner)))
  | some .tile => .filled a (.u32 p.tile)
  | none => .refused a (.unknownAt index)

/-- reads an attribute of the object under a key -/
def readAttribute (s : Store Record) (k : Key) (r : Record) (index : Nat) (a : Attribute) : ReadResult :=
  match r with
  | .pool p => readPool p index a
  | .profile p => readProfile s k p index a
  | .priorityGroup g => readSubqueue k.kind g index a
  | .queue q => readSubqueue k.kind q index a
  | .port p => readPort s k p index a

/-- reads the rest of a get request from a position on: the attributes as they are then, and the fault that stopped -/
def readAttributes (s : Store Record) (k : Key) (r : Record) : Nat → List Attribute → List Attribute × Option Fault
  | _, [] => ([], none)
  | index, a :: rest =>
    match readAttribute s k r index a with
    | (a', some fault) => (a' :: rest, some fault)
    | (a', none) =>
      let (rest', fault) := readAttributes s k r (index + 1) rest
      (a' :: rest', fault)

namespace Manager

/-- the object of a get request whose ids are in order -/
def readable (m : Manager) (id : ObjectId) (attrs : List Attribute) : Except Fault (Key × Record) := do
  let k ← Key.require id
  checkGet k.kind attrs
  return (k, ← m.store.require k)

/-- reads attributes of an object: the request as it is then, and how it ended -/
def getAttributes (m : Manager) (id : ObjectId) (attrs : List Attribute) : List Attribute × Except Fault Unit :=
  match m.readable id attrs with
  | .error fault => (attrs, .error fault)
  | .ok (k, r) =>
    match readAttributes m.store k r 0 attrs with
    | (attrs', none) => (attrs', .ok ())
    | (attrs', some fault) => (attrs', .error fault)

/-- the snapshots of all objects, in key order -/
def dump (m : Manager) : List Snapshot := m.store.dump

/-- a summary of the manager in one line -/
def summary (m : Manager) : String :=
  let flag (b : Bool) : String := if b then "true" else "false"
  let changes := m.counters.changes.map fun (name, n) => name ++ ": " ++ toString n.toNat
  "BufferOrch \x7b objects: " ++ toString m.store.size ++ ", pools: " ++ toString m.poolCount ++ ", profiles: " ++
    toString m.profileCount ++ ", tiled: " ++ flag m.hardware.isTiled ++ ", has_callbacks: " ++ flag m.watched ++
    ", stats: BufferOrchStats \x7b stats: BufferStats \x7b " ++ String.intercalate ", " changes ++
    " \x7d, errors: " ++ toString m.counters.errors.toNat ++ " \x7d \x7d"

end Manager

end SharedBuffer
