/-
The buffer manager's state, and the actions its requests are made of.

A manager holds the records of one switch, counts what it does, and keeps an outbox: the announcements and audit
records of its requests, oldest first. An action may fail with a fault; what it changed before it failed stays changed,
so that a refused request leaves everything as it was is a fact about the requests and not about actions.
-/
import SharedBuffer.Audit
import SharedBuffer.Snapshot

namespace SharedBuffer

/-- what the manager has done so far -/
structure Counters where
  poolsCreated : UInt64 := 0
  poolsRemoved : UInt64 := 0
  profilesCreated : UInt64 := 0
  profilesRemoved : UInt64 := 0
  groupBindings : UInt64 := 0
  queueBindings : UInt64 := 0
  portBindings : UInt64 := 0
  unbindings : UInt64 := 0
  /-- refused requests -/
  errors : UInt64 := 0
deriving DecidableEq

namespace Counters

/-- the counts of accepted changes, with their names in order -/
def changes (c : Counters) : List (String × UInt64) :=
  [("pools_created", c.poolsCreated), ("pools_removed", c.poolsRemoved), ("profiles_created", c.profilesCreated),
    ("profiles_removed", c.profilesRemoved), ("pg_bindings", c.groupBindings), ("queue_bindings", c.queueBindings),
    ("port_bindings", c.portBindings), ("unbindings", c.unbindings)]

/-- the counters as they are reported -/
def toJson (c : Counters) : Json :=
  .obj [("stats", .obj (c.changes.map fun (name, n) => (name, .amount n))), ("errors", .amount c.errors)]

end Counters

/-- one more, up to the largest count -/
def bump (n : UInt64) : UInt64 := saturatingAdd n 1

/-- what is announced to the side that programs the hardware -/
inductive Event where
  | poolChanged (id : ObjectId) (snapshot : PoolSnapshot)
  | poolRemoved (id : ObjectId)
  | profileChanged (id : ObjectId) (snapshot : ProfileSnapshot)
  | profileRemoved (id : ObjectId)
deriving DecidableEq

/-- the shared buffer of one switch -/
structure Manager where
  hardware : Hardware
  /-- whether changes are announced -/
  watched : Bool := false
  store : Store Record := {}
  counters : Counters := {}
  /-- announcements, oldest first -/
  events : List Event := []
  /-- audit records, oldest first -/
  audit : List AuditRecord := []

/-- an action of the manager that may fail; what it changed before it failed stays changed -/
abbrev ManagerM := ExceptT Fault (StateM Manager)

namespace ManagerM

variable {α : Type}

/-- looks at the manager -/
def reading (f : Manager → Except Fault α) : ManagerM α := ExceptT.mk fun m => (f m, m)

/-- looks at the store -/
def readingStore (f : Store Record → Except Fault α) : ManagerM α := reading fun m => f m.store

/-- changes the manager -/
def update (f : Manager → Manager) : ManagerM Unit := ExceptT.mk fun m => (.ok (), f m)

/-- changes the counters -/
def count (f : Counters → Counters) : ManagerM Unit := update fun m => { m with counters := f m.counters }

/-- an operation of the store as an action -/
def onStore (op : StoreM Record α) : ManagerM α := ExceptT.mk fun m =>
  let (result, store) := op.run m.store
  (result.mapError StoreError.toFault, { m with store })

/-- an operation on lists as an action -/
def onLists (op : LinkM α) : ManagerM α := ExceptT.mk fun m =>
  let (result, store) := op.run m.store
  (result.mapError LinkError.toFault, { m with store })

/-- an action that answers how another ended -/
def attempt (action : ManagerM α) : ManagerM (Except Fault α) := ExceptT.mk fun m =>
  let (result, m') := action.run m
  (.ok result, m')

/-- a request: its failure counts as an error -/
def counted (action : ManagerM α) : ManagerM α := do
  match ← attempt action with
  | .ok a => return a
  | .error fault =>
    count fun c => { c with errors := bump c.errors }
    throw fault

/-! ## The outbox -/

/-- announces a change, if anybody listens -/
def announce (e : Event) : ManagerM Unit :=
  update fun m => if m.watched then { m with events := m.events ++ [e] } else m

/-- announces a change of an object, if it is filed under the kind -/
def announceOf (kind : ObjectKind) (k : Key) (event : Handle kind → Event) : ManagerM Unit :=
  match Handle.ofKey? kind k with
  | some object => announce (event object)
  | none => pure ()

theorem announceOf_eq {kind : ObjectKind} {k : Key} (h : k.kind = kind) (event : Handle kind → Event) :
    announceOf kind k event = announce (event ⟨k.id⟩) := by
  rw [announceOf, Handle.ofKey?, if_pos h]

/-- announces a pool as it stands -/
def announcePool (k : Key) : ManagerM Unit := do
  match ← attempt (readingStore fun s => s.poolSnapshot k) with
  | .ok snapshot => announceOf .pool k fun pool => .poolChanged pool.raw snapshot
  | .error _ => pure ()

/-- announces a profile as it stands -/
def announceProfile (k : Key) : ManagerM Unit := do
  match ← attempt (readingStore fun s => s.profileSnapshot k) with
  | .ok snapshot => announceOf .profile k fun profile => .profileChanged profile.raw snapshot
  | .error _ => pure ()

/-- adds a record to the audit trail -/
def log (r : AuditRecord) : ManagerM Unit := update fun m => { m with audit := m.audit ++ [r] }

/-- the start of an audit record of the manager -/
def auditRecord (category : AuditCategory) (action : String) (object : Option Key) : AuditRecord :=
  let r : AuditRecord := { category, source := "BufferOrch", action }
  match object with
  | some k => r.withObject k
  | none => r

/-- records a change -/
def logChange (category : AuditCategory) (action : String) (object : Key) (details : Json) : ManagerM Unit :=
  log ((auditRecord category action (some object)).withDetails details)

/-- records a refusal -/
def logRefusal (category : AuditCategory) (action : String) (object : Option Key) (fault : Fault) :
    ManagerM Unit :=
  log ((auditRecord category action object).withRefusal fault)

/-- records a change to an object, with the object as it stands afterwards -/
def logSnapshot (category : AuditCategory) (action : String) (object : Key) : ManagerM Unit := do
  let details ← reading fun m => .ok (match m.store.snapshot object with
    | .ok snapshot => snapshot.toJson
    | .error _ => .null)
  logChange category action object details

/-! ## Changes of records and figures -/

/-- changes a pool -/
def modifyPool (k : Key) (f : Pool → Pool) : ManagerM Unit := do
  let _ ← readingStore fun s => s.poolAt k
  onStore (Store.modify k (Record.mapPool f))

/-- changes a profile -/
def modifyProfile (k : Key) (f : Profile → Profile) : ManagerM Unit := do
  let _ ← readingStore fun s => s.profileAt k
  onStore (Store.modify k (Record.mapProfile f))

/-- the figures that a change would give to the pools it concerns -/
def plan (c : Change) : ManagerM (List (Key × Totals)) :=
  reading fun m => Accounting.plan m.hardware m.store c

/-- writes new figures into their pools -/
def writeTotals : List (Key × Totals) → ManagerM Unit
  | [] => pure ()
  | (pool, t) :: rest => do
    modifyPool pool fun p =>
      { p with
        sharedSize := t.sharedSize
        tileReserved := t.tileReserved
        tilesTotalReserved := t.tilesTotalReserved }
    writeTotals rest

/-- announces some pools in turn -/
def announcePools : List Key → ManagerM Unit
  | [] => pure ()
  | pool :: rest => do
    announcePool pool
    announcePools rest

/-- writes new figures into their pools, then announces those pools -/
def commit (figures : List (Key × Totals)) : ManagerM Unit := do
  writeTotals figures
  announcePools (figures.map Prod.fst)

end ManagerM

namespace Manager

/-- a manager without any object -/
def new (hardware : Hardware) : Manager := { hardware }

/-- the same manager with an empty outbox -/
def cleared (m : Manager) : Manager := { m with events := [], audit := [] }

/-- the number of live pools -/
def poolCount (m : Manager) : Nat := m.store.countKind .pool

/-- the number of live profiles -/
def profileCount (m : Manager) : Nat := m.store.countKind .profile

/-- the live object with an id, if it is of the kind asked for -/
def resolve? (m : Manager) (kind : ObjectKind) (id : ObjectId) : Option Key :=
  (Key.ofId? id).filter fun k => k.kind = kind && m.store.contains k

end Manager

end SharedBuffer
