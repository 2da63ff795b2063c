/-
Bringing up ports, and finding them again.

Ports, priority groups and queues come into being only here, and they stay. The groups and queues of a port are
attached in the order of their indexes.
-/
import SharedBuffer.Manager.Basic

namespace SharedBuffer

namespace Manager

/-- the port with a hardware number -/
def findPort? (m : Manager) (hardwareNumber : UInt32) : Option PortId :=
  ((m.store.ofKind .port).find? fun (_, r) => r.asPort?.any fun p => p.hardwareNumber == hardwareNumber).bind
    fun (k, _) => Handle.ofKey? .port k

end Manager

/-- a key as a handle, for a request that needs one -/
def Handle.require (kind : ObjectKind) (k : Key) : Except Fault (Handle kind) :=
  match Handle.ofKey? kind k with
  | some h => .ok h
  | none => .error (.invalidParameter (k.label ++ " is not a " ++ kind.label))

/-- an id as a handle, for a request that needs one -/
def Handle.requireId (kind : ObjectKind) (id : ObjectId) : Except Fault (Handle kind) :=
  match Handle.ofId? kind id with
  | some h => .ok h
  | none => .error (.invalidParameter (paddedHexText 16 id.toNat ++ " is not a " ++ kind.label))

namespace Manager

/-- the priority groups of a port, in index order -/
def priorityGroupsOf (m : Manager) (port : PortId) : Except Fault (List PriorityGroupId) := do
  (← m.store.requireMembers .portPriorityGroups port.key).mapM (Handle.require .priorityGroup)

/-- the queues of a port, in index order -/
def queuesOf (m : Manager) (port : PortId) : Except Fault (List QueueId) := do
  (← m.store.requireMembers .portQueues port.key).mapM (Handle.require .queue)

end Manager

namespace ManagerM

/-- adds so many priority groups or queues to a port, numbered from an index on -/
def addSubqueues (kind : ObjectKind) (roster : Roster) (toRecord : Subqueue → Record) (port : Key) :
    Nat → UInt32 → ManagerM Unit
  | 0, _ => pure ()
  | n + 1, index => do
    let member ← onStore (Store.insertNew kind (toRecord { index }))
    onLists (Store.attach roster port member)
    addSubqueues kind roster toRecord port n (index + 1)

/-- brings up a port with its priority groups and queues -/
def registerPort (hardwareNumber groups queues : UInt32) : ManagerM PortId := do
  if (← reading fun m => .ok (m.findPort? hardwareNumber)).isSome then
    throw (.alreadyExists ("port with hardware number " ++ toString hardwareNumber.toNat))
  let tile ← reading fun m => .ok (m.hardware.tileOf hardwareNumber)
  let port ← onStore (Store.insertNew .port (.port { hardwareNumber, tile }))
  addSubqueues .priorityGroup .portPriorityGroups .priorityGroup port groups.toNat 0
  addSubqueues .queue .portQueues .queue port queues.toNat 0
  logChange .portLifecycle "register_port" port (.obj
    [("hw_port_number", .count hardwareNumber), ("tile", .count tile), ("priority_groups", .count groups),
      ("queues", .count queues)])
  reading fun _ => Handle.require .port port

end ManagerM

end SharedBuffer
