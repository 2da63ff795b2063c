/-
The requests a manager takes: register a port, create, remove and set by object id, and the same by typed handle.

A request is checked against the attribute tables first; only a clean one reaches the object it concerns. A refused
create, remove or set counts as an error.
-/
import SharedBuffer.Manager.Binding
import SharedBuffer.Manager.Port

namespace SharedBuffer

/-- the key an id states, for a request that needs one -/
def Key.require (id : ObjectId) : Except Fault Key :=
  match Key.ofId? id with
  | some k => .ok k
  | none => .error (.notFound ("object " ++ paddedHexText 16 id.toNat))

namespace ManagerM

/-! ## By object id -/

/-- creates a pool or a profile -/
def create (kind : ObjectKind) (attrs : List Attribute) : ManagerM ObjectId := counted do
  reading fun _ => checkCreate kind attrs
  match kind with
  | .pool => return (← createPoolFrom attrs).id
  | .profile => return (← createProfileFrom attrs).id
  | other => throw (.notSupported ("creating " ++ other.name ++ " objects"))

/-- removes a pool or a profile -/
def remove (id : ObjectId) : ManagerM Unit := counted do
  let k ← reading fun _ => Key.require id
  match k.kind with
  | .pool => removePool k
  | .profile => removeProfile k
  | other => throw (.notSupported ("removing " ++ other.name ++ " objects"))

/-- sets an attribute of an object; the only one of a priority group, queue or port is its profile -/
def setAttribute (id : ObjectId) (a : Attribute) : ManagerM Unit := counted do
  let k ← reading fun _ => Key.require id
  let _ ← reading fun _ => checkSet k.kind a
  let _ ← readingStore fun s => s.require k
  match k.kind with
  | .pool => setPool k a
  | .profile => setProfile k a
  | .switch => throw (.notSupported "switch attributes")
  | .priorityGroup | .queue | .port =>
    match a.value.asOid? with
    | some profileId => bindConsumer k profileId
    | none => throw (.badValueAt 0 "expected an object id")

/-! ## By handle -/

/-- the attributes of a pool to create -/
def poolAttributes (direction : Direction) (size : UInt64) (mode : Option ThresholdMode) : List Attribute :=
  [⟨PoolAttribute.direction.id, .s32 direction.code⟩, ⟨PoolAttribute.size.id, .u64 size⟩] ++
    (mode.map fun m => ⟨PoolAttribute.thresholdMode.id, .s32 m.code⟩).toList

/-- creates a pool -/
def createPool (direction : Direction) (size : UInt64) (mode : Option ThresholdMode) : ManagerM PoolId := do
  let id ← create .pool (poolAttributes direction size mode)
  reading fun _ => Handle.requireId .pool id

end ManagerM

/-- what is asked of a new profile -/
structure ProfileParams where
  pool : PoolId
  size : UInt64
  mode : ProfileMode := .inherited
  threshold : Threshold
  xoff : Option UInt64 := none
  xon : Option UInt64 := none
deriving DecidableEq

namespace ProfileParams

/-- the attribute that gives a threshold -/
def thresholdAttribute : Threshold → Attribute
  | .dynamic alpha => ⟨ProfileAttribute.dynamicThreshold.id, .i8 alpha⟩
  | .static limit => ⟨ProfileAttribute.staticThreshold.id, .u64 limit⟩

/-- the attributes of the profile; an inherited mode is not stated -/
def toAttributes (p : ProfileParams) : List Attribute :=
  [⟨ProfileAttribute.poolId.id, .oid p.pool.raw⟩, ⟨ProfileAttribute.reservedSize.id, .u64 p.size⟩] ++
    (if p.mode.isExplicit then [⟨ProfileAttribute.thresholdMode.id, .s32 p.mode.code⟩] else []) ++
    [thresholdAttribute p.threshold] ++
    (p.xoff.map fun n => ⟨ProfileAttribute.xoffThreshold.id, .u64 n⟩).toList ++
    (p.xon.map fun n => ⟨ProfileAttribute.xonThreshold.id, .u64 n⟩).toList

end ProfileParams

namespace ManagerM

/-- creates a profile -/
def createProfile (p : ProfileParams) : ManagerM ProfileId := do
  let id ← create .profile p.toAttributes
  reading fun _ => Handle.requireId .profile id

/-- gives a pool another size -/
def setPoolSize (pool : PoolId) (size : UInt64) : ManagerM Unit :=
  setAttribute pool.raw ⟨PoolAttribute.size.id, .u64 size⟩

/-- sets an attribute of a profile -/
def setProfileAttribute (profile : ProfileId) (a : ProfileAttribute) (value : AttributeValue) : ManagerM Unit :=
  setAttribute profile.raw ⟨a.id, value⟩

/-- the id of a profile, or the null id -/
def profileOrNull (profile : Option ProfileId) : AttributeValue := .oid (profile.elim nullId Handle.raw)

/-- binds a priority group to a profile, or unbinds it -/
def bindGroup (group : PriorityGroupId) (profile : Option ProfileId) : ManagerM Unit :=
  setAttribute group.raw ⟨PriorityGroupAttribute.profile.id, profileOrNull profile⟩

/-- binds a queue to a profile, or unbinds it -/
def bindQueue (queue : QueueId) (profile : Option ProfileId) : ManagerM Unit :=
  setAttribute queue.raw ⟨QueueAttribute.profile.id, profileOrNull profile⟩

/-- binds a port to a profile, or unbinds it -/
def bindPort (port : PortId) (profile : Option ProfileId) : ManagerM Unit :=
  setAttribute port.raw ⟨PortAttribute.ingressProfile.id, profileOrNull profile⟩

end ManagerM

/-! ## Runs -/

/-- a request that may change the manager -/
inductive Request where
  | registerPort (hardwareNumber groups queues : UInt32)
  | create (kind : ObjectKind) (attrs : List Attribute)
  | remove (id : ObjectId)
  | setAttribute (id : ObjectId) (a : Attribute)
deriving DecidableEq

namespace Request

/-- makes a request; answers the id of what it created, or the null id -/
def perform : Request → ManagerM ObjectId
  | registerPort hardwareNumber groups queues => do
    return (← ManagerM.registerPort hardwareNumber groups queues).raw
  | create kind attrs => ManagerM.create kind attrs
  | remove id => do
    ManagerM.remove id
    return nullId
  | setAttribute id a => do
    ManagerM.setAttribute id a
    return nullId

end Request

end SharedBuffer
