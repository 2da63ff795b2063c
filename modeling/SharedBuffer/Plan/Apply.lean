/-
Applying a plan: its pools first, then its profiles, then the bindings of priority groups, queues and ports.

The first step that fails stops the plan; what the steps before it did stays done. The report shows the pools and
profiles that a plan created, as they stand.
-/
import SharedBuffer.Manager.Reading
import SharedBuffer.Plan.Basic
import SharedBuffer.Plan.ConsumerKey

namespace SharedBuffer

/-- what a plan has created so far, by name, and how many of its entries are done -/
structure AppliedPlan where
  pools : List (String × PoolId) := []
  profiles : List (String × ProfileId) := []
  steps : Nat := 0
deriving DecidableEq

/-- a manager with a plan under way -/
structure PlanState where
  manager : Manager
  applied : AppliedPlan := {}

/-- a part of a plan that may fail; what it changed before it failed stays changed -/
abbrev PlanM := ExceptT PlanError (StateM PlanState)

namespace ProfilePlan

/-- the attributes of the profile, in a pool -/
def toAttributes (p : ProfilePlan) (pool : PoolId) : List Attribute :=
  [⟨ProfileAttribute.poolId.id, .oid pool.raw⟩, ⟨ProfileAttribute.reservedSize.id, .u64 p.size⟩] ++
    (p.mode.map fun m => ⟨ProfileAttribute.thresholdMode.id, .s32 m.code⟩).toList ++
    (p.dynamicThreshold.map fun n => ⟨ProfileAttribute.dynamicThreshold.id, .i8 n⟩).toList ++
    (p.staticThreshold.map fun n => ⟨ProfileAttribute.staticThreshold.id, .u64 n⟩).toList ++
    (p.xoff.map fun n => ⟨ProfileAttribute.xoffThreshold.id, .u64 n⟩).toList ++
    (p.xon.map fun n => ⟨ProfileAttribute.xonThreshold.id, .u64 n⟩).toList

end ProfilePlan

namespace PlanM

variable {α : Type}

/-- a request of a step -/
def request (step : String) (action : ManagerM α) : PlanM α := ExceptT.mk fun p =>
  let (result, manager) := action.run p.manager
  (result.mapError (PlanError.rejected step), { p with manager })

/-- looks at the manager, for a step -/
def reading (f : Manager → Except PlanError α) : PlanM α := ExceptT.mk fun p => (f p.manager, p)

/-- looks at what is done, for a step -/
def readingApplied (f : AppliedPlan → Except PlanError α) : PlanM α := ExceptT.mk fun p => (f p.applied, p)

/-- notes what is done -/
def note (f : AppliedPlan → AppliedPlan) : PlanM Unit :=
  ExceptT.mk fun p => (.ok (), { p with applied := f p.applied })

/-- one entry more is done -/
def stepDone : PlanM Unit := note fun a => { a with steps := a.steps + 1 }

/-- something by name, of what the plan has created -/
def created {β : Type} (step what : String) (name : String) (entries : List (String × β)) : Except PlanError β :=
  match entries.lookup name with
  | some b => .ok b
  | none => .error (.reference step ("unknown " ++ what ++ " " ++ name))

/-! ## Pools and profiles -/

/-- creates a pool of a plan -/
def applyPool (entry : String × PoolPlan) : PlanM Unit := do
  let (name, pool) := entry
  let id ← request ("BUFFER_POOL|" ++ name) (ManagerM.createPool pool.direction pool.size pool.mode)
  note fun a => { a with pools := putByName name id a.pools }
  stepDone

/-- creates a profile of a plan -/
def applyProfile (entry : String × ProfilePlan) : PlanM Unit := do
  let (name, profile) := entry
  let step := "BUFFER_PROFILE|" ++ name
  let pool ← readingApplied fun a => created step "pool" profile.pool a.pools
  let id ← request step do
    let id ← ManagerM.create .profile (profile.toAttributes pool)
    ManagerM.reading fun _ => match Handle.ofId? .profile id with
      | some h => .ok h
      | none => .error (.invalidParameter (paddedHexText 16 id.toNat ++ " is not a profile"))
  note fun a => { a with profiles := putByName name id a.profiles }
  stepDone

/-! ## Bindings -/

/-- binds consumers of a port to a profile, from an index on, so many of them -/
def bindRange {kind : ObjectKind} (step what : String) (bind : Handle kind → Option ProfileId → ManagerM Unit)
    (members : List (Handle kind)) (profile : ProfileId) : Nat → Nat → PlanM Unit
  | 0, _ => pure ()
  | n + 1, index => do
    match members[index]? with
    | none => throw (.reference step ("port has " ++ toString members.length ++ " " ++ what))
    | some member =>
      request step (bind member (some profile))
      bindRange step what bind members profile n (index + 1)

/-- the port that a key names, with the key -/
def consumersOf (step text : String) : PlanM (PortId × ConsumerKey) := do
  match ConsumerKey.ofText? text with
  | none => throw (.reference step ("bad key " ++ text))
  | some key =>
    match ← reading fun m => .ok (m.findPort? key.port) with
    | some port => return (port, key)
    | none => throw (.reference step ("unknown port " ++ portNameStart ++ toString key.port.toNat))

/-- binds the consumers under a key of a plan -/
def applyConsumers {kind : ObjectKind} (table what : String)
    (membersOf : Manager → PortId → Except Fault (List (Handle kind)))
    (bind : Handle kind → Option ProfileId → ManagerM Unit) (entry : String × String) : PlanM Unit := do
  let (text, profileName) := entry
  let step := table ++ "|" ++ text
  let profile ← readingApplied fun a => created step "profile" profileName a.profiles
  let (port, key) ← consumersOf step text
  let members ← reading fun m => (membersOf m port).mapError (PlanError.rejected step)
  bindRange step what bind members profile (key.last.toNat + 1 - key.first.toNat) key.first.toNat
  stepDone

/-- binds priority groups of a plan -/
def applyGroups (entry : String × String) : PlanM Unit :=
  applyConsumers "BUFFER_PG" "priority groups" Manager.priorityGroupsOf ManagerM.bindGroup entry

/-- binds queues of a plan -/
def applyQueues (entry : String × String) : PlanM Unit :=
  applyConsumers "BUFFER_QUEUE" "queues" Manager.queuesOf ManagerM.bindQueue entry

/-- binds a port of a plan -/
def applyPort (entry : String × String) : PlanM Unit := do
  let (name, profileName) := entry
  let step := "BUFFER_PORT_INGRESS_PROFILE|" ++ name
  let profile ← readingApplied fun a => created step "profile" profileName a.profiles
  match portNumber? name.toList with
  | none => throw (.reference step ("bad port name " ++ name))
  | some number =>
    match ← reading fun m => .ok (m.findPort? number) with
    | none => throw (.reference step ("unknown port " ++ name))
    | some port => request step (ManagerM.bindPort port (some profile))
  stepDone

/-! ## Whole plans -/

/-- makes each entry of a table in turn -/
def forEntries {β : Type} (apply : β → PlanM Unit) : List β → PlanM Unit
  | [] => pure ()
  | entry :: rest => do
    apply entry
    forEntries apply rest

/-- makes the steps of a plan in turn -/
def applySteps (plan : Plan) : PlanM Unit := do
  forEntries applyPool plan.pools
  forEntries applyProfile plan.profiles
  forEntries applyGroups plan.priorityGroups
  forEntries applyQueues plan.queues
  forEntries applyPort plan.ports

end PlanM

namespace Plan

/-- the audit record of a plan that ended -/
def auditRecord (applied : AppliedPlan) (result : Except PlanError Unit) : AuditRecord :=
  let r : AuditRecord := { category := .planApply, source := "BufferPlan", action := "apply_buffer_plan" }
  match result with
  | .ok () => r.withDetails (.obj
      [("steps", .nat applied.steps), ("pools", .nat applied.pools.length),
        ("profiles", .nat applied.profiles.length)])
  | .error (.rejected _ fault) => (r.withRefusal fault).withDetails (.obj [("steps", .nat applied.steps)])
  | .error e => r.withFailure e.message

/-- applies a plan: what it created, and the manager it leaves -/
def apply (plan : Plan) (m : Manager) : Except PlanError AppliedPlan × Manager :=
  let (result, p) := (PlanM.applySteps plan).run { manager := m }
  let record := auditRecord p.applied result
  (result.map fun () => p.applied, { p.manager with audit := p.manager.audit ++ [record] })

end Plan

/-! ## Reports -/

/-- the pools and profiles of a plan as they stand, and the counters -/
structure PlanReport where
  pools : List (String × PoolSnapshot)
  profiles : List (String × ProfileSnapshot)
  counters : Counters
deriving DecidableEq

namespace PlanReport

/-- a report as it is written -/
def toJson (r : PlanReport) : Json :=
  .obj [("pools", .obj (r.pools.map fun (name, p) => (name, .obj p.fields))),
    ("profiles", .obj (r.profiles.map fun (name, p) => (name, .obj p.fields))), ("stats", r.counters.toJson)]

end PlanReport

namespace AppliedPlan

/-- what is to be reported of a plan -/
def report (a : AppliedPlan) (m : Manager) : Except Fault PlanReport := do
  let pools ← a.pools.mapM fun (name, id) => do return (name, ← m.store.poolSnapshot id.key)
  let profiles ← a.profiles.mapM fun (name, id) => do return (name, ← m.store.profileSnapshot id.key)
  return ⟨pools, profiles, m.counters⟩

end AppliedPlan

end SharedBuffer
