/-
The attributes of each kind of object, with their ids and names.

Each kind of object has an id space of its own. Ids from `customBase` on are additions of this manager.
-/

namespace SharedBuffer

/-- the first id of the range for additions -/
def customBase : UInt32 := 0x10000000

/-! ## Buffer pools -/

/-- an attribute of a buffer pool -/
inductive PoolAttribute where
  | sharedSize
  | direction
  | size
  | thresholdMode
  | tilesTotalReserved
  | tileReserved
deriving DecidableEq

namespace PoolAttribute

/-- every attribute of a pool -/
def all : List PoolAttribute := [sharedSize, direction, size, thresholdMode, tilesTotalReserved, tileReserved]

/-- the id of a pool attribute -/
def id : PoolAttribute → UInt32
  | sharedSize => 0
  | direction => 1
  | size => 2
  | thresholdMode => 3
  | tilesTotalReserved => customBase
  | tileReserved => customBase + 1

/-- the pool attribute with an id -/
def ofId? (n : UInt32) : Option PoolAttribute := all.find? (fun a => a.id == n)

/-- the full name of a pool attribute -/
def name : PoolAttribute → String
  | sharedSize => "SAI_BUFFER_POOL_ATTR_SHARED_SIZE"
  | direction => "SAI_BUFFER_POOL_ATTR_TYPE"
  | size => "SAI_BUFFER_POOL_ATTR_SIZE"
  | thresholdMode => "SAI_BUFFER_POOL_ATTR_THRESHOLD_MODE"
  | tilesTotalReserved => "SAI_BUFFER_POOL_ATTR_TILES_TOTAL_RESERVED_SIZE"
  | tileReserved => "SAI_BUFFER_POOL_ATTR_TILE_RESERVED_SIZES"

/-- the short name of a pool attribute -/
def label : PoolAttribute → String
  | sharedSize => "SharedSize"
  | direction => "Type"
  | size => "Size"
  | thresholdMode => "ThresholdMode"
  | tilesTotalReserved => "TilesTotalReservedSize"
  | tileReserved => "TileReservedSizes"

end PoolAttribute

/-! ## Buffer profiles -/

/-- an attribute of a buffer profile -/
inductive ProfileAttribute where
  | poolId
  | reservedSize
  | thresholdMode
  | dynamicThreshold
  | staticThreshold
  | xoffThreshold
  | xonThreshold
  | referenceCount
  | consumerList
deriving DecidableEq

namespace ProfileAttribute

/-- every attribute of a profile -/
def all : List ProfileAttribute :=
  [poolId, reservedSize, thresholdMode, dynamicThreshold, staticThreshold, xoffThreshold, xonThreshold,
    referenceCount, consumerList]

/-- the id of a profile attribute -/
def id : ProfileAttribute → UInt32
  | poolId => 0
  | reservedSize => 1
  | thresholdMode => 2
  | dynamicThreshold => 3
  | staticThreshold => 4
  | xoffThreshold => 5
  | xonThreshold => 6
  | referenceCount => customBase
  | consumerList => customBase + 1

/-- the profile attribute with an id -/
def ofId? (n : UInt32) : Option ProfileAttribute := all.find? (fun a => a.id == n)

/-- the full name of a profile attribute -/
def name : ProfileAttribute → String
  | poolId => "SAI_BUFFER_PROFILE_ATTR_POOL_ID"
  | reservedSize => "SAI_BUFFER_PROFILE_ATTR_RESERVED_BUFFER_SIZE"
  | thresholdMode => "SAI_BUFFER_PROFILE_ATTR_THRESHOLD_MODE"
  | dynamicThreshold => "SAI_BUFFER_PROFILE_ATTR_SHARED_DYNAMIC_TH"
  | staticThreshold => "SAI_BUFFER_PROFILE_ATTR_SHARED_STATIC_TH"
  | xoffThreshold => "SAI_BUFFER_PROFILE_ATTR_XOFF_TH"
  | xonThreshold => "SAI_BUFFER_PROFILE_ATTR_XON_TH"
  | referenceCount => "SAI_BUFFER_PROFILE_ATTR_REFERENCE_COUNT"
  | consumerList => "SAI_BUFFER_PROFILE_ATTR_CONSUMER_LIST"

/-- the short name of a profile attribute -/
def label : ProfileAttribute → String
  | poolId => "PoolId"
  | reservedSize => "ReservedBufferSize"
  | thresholdMode => "ThresholdMode"
  | dynamicThreshold => "SharedDynamicTh"
  | staticThreshold => "SharedStaticTh"
  | xoffThreshold => "XoffTh"
  | xonThreshold => "XonTh"
  | referenceCount => "ReferenceCount"
  | consumerList => "ConsumerList"

/-- the profile attribute with a short name -/
def ofLabel? (s : String) : Option ProfileAttribute := all.find? (fun a => a.label == s)

end ProfileAttribute

/-! ## Ingress priority groups -/

/-- an attribute of an ingress priority group -/
inductive PriorityGroupAttribute where
  | profile
  | port
  | index
deriving DecidableEq

namespace PriorityGroupAttribute

/-- every attribute of a priority group -/
def all : List PriorityGroupAttribute := [profile, port, index]

/-- the id of a priority group attribute -/
def id : PriorityGroupAttribute → UInt32
  | profile => 0
  | port => 1
  | index => 2

/-- the priority group attribute with an id -/
def ofId? (n : UInt32) : Option PriorityGroupAttribute := all.find? (fun a => a.id == n)

/-- the full name of a priority group attribute -/
def name : PriorityGroupAttribute → String
  | profile => "SAI_INGRESS_PRIORITY_GROUP_ATTR_BUFFER_PROFILE"
  | port => "SAI_INGRESS_PRIORITY_GROUP_ATTR_PORT"
  | index => "SAI_INGRESS_PRIORITY_GROUP_ATTR_INDEX"

/-- the short name of a priority group attribute -/
def label : PriorityGroupAttribute → String
  | profile => "BufferProfile"
  | port => "Port"
  | index => "Index"

end PriorityGroupAttribute

/-! ## Queues -/

/-- an attribute of a queue -/
inductive QueueAttribute where
  | port
  | index
  | profile
deriving DecidableEq

namespace QueueAttribute

/-- every attribute of a queue -/
def all : List QueueAttribute := [port, index, profile]

/-- the id of a queue attribute -/
def id : QueueAttribute → UInt32
  | port => 1
  | index => 2
  | profile => 5

/-- the queue attribute with an id -/
def ofId? (n : UInt32) : Option QueueAttribute := all.find? (fun a => a.id == n)

/-- the full name of a queue attribute -/
def name : QueueAttribute → String
  | port => "SAI_QUEUE_ATTR_PORT"
  | index => "SAI_QUEUE_ATTR_INDEX"
  | profile => "SAI_QUEUE_ATTR_BUFFER_PROFILE_ID"

/-- the short name of a queue attribute -/
def label : QueueAttribute → String
  | port => "Port"
  | index => "Index"
  | profile => "BufferProfileId"

end QueueAttribute

/-! ## Ports -/

/-- an attribute of a port -/
inductive PortAttribute where
  | hardwareNumber
  | groupCount
  | groupList
  | queueCount
  | queueList
  | ingressProfile
  | tile
deriving DecidableEq

namespace PortAttribute

/-- every attribute of a port -/
def all : List PortAttribute :=
  [hardwareNumber, groupCount, groupList, queueCount, queueList, ingressProfile, tile]

/-- the id of a port attribute -/
def id : PortAttribute → UInt32
  | hardwareNumber => 0
  | groupCount => 1
  | groupList => 2
  | queueCount => 3
  | queueList => 4
  | ingressProfile => 5
  | tile => customBase

/-- the port attribute with an id -/
def ofId? (n : UInt32) : Option PortAttribute := all.find? (fun a => a.id == n)

/-- the full name of a port attribute -/
def name : PortAttribute → String
  | hardwareNumber => "SAI_PORT_ATTR_HW_PORT_NUMBER"
  | groupCount => "SAI_PORT_ATTR_NUMBER_OF_INGRESS_PRIORITY_GROUPS"
  | groupList => "SAI_PORT_ATTR_INGRESS_PRIORITY_GROUP_LIST"
  | queueCount => "SAI_PORT_ATTR_QOS_NUMBER_OF_QUEUES"
  | queueList => "SAI_PORT_ATTR_QOS_QUEUE_LIST"
  | ingressProfile => "SAI_PORT_ATTR_QOS_INGRESS_BUFFER_PROFILE"
  | tile => "SAI_PORT_ATTR_TILE"

/-- the short name of a port attribute -/
def label : PortAttribute → String
  | hardwareNumber => "HwPortNumber"
  | groupCount => "NumberOfIngressPriorityGroups"
  | groupList => "IngressPriorityGroupList"
  | queueCount => "QosNumberOfQueues"
  | queueList => "QosQueueList"
  | ingressProfile => "QosIngressBufferProfile"
  | tile => "Tile"

end PortAttribute

end SharedBuffer
