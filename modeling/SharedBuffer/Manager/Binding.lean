/-
Binding consumers to profiles.

A priority group, queue or port draws from the pool of the profile it is bound to, which has to be of the consumer's
direction. Binding to another profile takes the place of the old binding; the null id unbinds.
-/
import SharedBuffer.Manager.Profile

namespace SharedBuffer

namespace ManagerM

/-- the profile that an id names as the target of a binding, if it may serve consumers of a kind -/
def bindingTarget (consumer : ObjectKind) (profileId : ObjectId) : ManagerM (Option Key) := do
  if profileId = nullId then return none
  let profile ← reading fun m => match m.resolve? .profile profileId with
    | some k => .ok k
    | none => .error (.badValueAt 0 (hexText profileId.toNat ++ " is not a buffer profile"))
  let pool ← poolOf profile
  let direction := (← readingStore fun s => s.poolAt pool).direction
  if !direction.accepts consumer then
    throw (.badValueAt 0 (direction.label ++ " pool cannot serve " ++ consumer.name))
  return some profile

/-- detaches a consumer from the profile it is bound to, if there is one -/
def unlink (consumer : Key) : Option Key → ManagerM Unit
  | some profile => onLists (Store.detach .profileConsumers profile consumer)
  | none => pure ()

/-- attaches a consumer to a profile, if there is one -/
def link (consumer : Key) : Option Key → ManagerM Unit
  | some profile => onLists (Store.attach .profileConsumers profile consumer)
  | none => pure ()

/-- announces a profile, if there is one -/
def announceOptional : Option Key → ManagerM Unit
  | some profile => announceProfile profile
  | none => pure ()

/-- how a binding changed -/
inductive Rebinding where
  | unchanged
  | changed (target : Option Key)

/-- binds a consumer, or fails -/
def tryBind (consumer : Key) (profileId : ObjectId) : ManagerM Rebinding := do
  let target ← bindingTarget consumer.kind profileId
  let current ← readingStore fun s => do return (← s.require consumer).boundProfile?
  if current = target then return .unchanged
  let figures ← plan (.bind consumer target)
  unlink consumer current
  link consumer target
  commit figures
  announceOptional current
  announceOptional target
  return .changed target

/-- counts a changed binding of a consumer of some kind -/
def countBinding (consumer : ObjectKind) (target : Option Key) (c : Counters) : Counters :=
  match target, consumer with
  | none, _ => { c with unbindings := bump c.unbindings }
  | some _, .priorityGroup => { c with groupBindings := bump c.groupBindings }
  | some _, .queue => { c with queueBindings := bump c.queueBindings }
  | some _, _ => { c with portBindings := bump c.portBindings }

/-- binds a consumer, counted and on record; nothing is either where the binding is already there -/
def bindConsumer (consumer : Key) (profileId : ObjectId) : ManagerM Unit := do
  match ← attempt (tryBind consumer profileId) with
  | .ok .unchanged => pure ()
  | .ok (.changed target) =>
    count (countBinding consumer.kind target)
    logChange .consumerBinding "bind_buffer_profile" consumer
      (.obj [("profile", .ofOption (fun k => .str k.text) target)])
  | .error fault =>
    logRefusal .consumerBinding "bind_buffer_profile" (some consumer) fault
    throw fault

end ManagerM

end SharedBuffer
