/-
The records of the buffer store, and the lists that tie them together.

Lists are threaded through the records: an owner holds a head for each list it owns, a member holds a link for each
list it can be in. Four kinds of list (rosters) exist: the profiles of a pool, the consumers of a profile, and the
priority groups and the queues of a port. A consumer is a priority group, a queue or a port.
-/
import SharedBuffer.Buffer.Mode
import SharedBuffer.Object.Key

namespace SharedBuffer

/-- the kinds of list between records -/
inductive Roster where
  | poolProfiles
  | profileConsumers
  | portPriorityGroups
  | portQueues
deriving DecidableEq

namespace Roster

/-- every kind of list -/
def all : List Roster := [poolProfiles, profileConsumers, portPriorityGroups, portQueues]

/-- the name of a kind of list -/
def label : Roster → String
  | poolProfiles => "PoolProfiles"
  | profileConsumers => "ProfileConsumers"
  | portPriorityGroups => "PortPriorityGroups"
  | portQueues => "PortQueues"

end Roster

/-- an owner's end of a list -/
structure ListHead where
  first : Option Key := none
  last : Option Key := none
  length : UInt32 := 0
deriving DecidableEq

/-- a member's place in a list -/
structure Link where
  owner : Key
  previous : Option Key
  next : Option Key
deriving DecidableEq

/-- a buffer pool; its shared size is what the reservations leave of its size -/
structure Pool where
  direction : Direction
  size : UInt64
  mode : ThresholdMode
  sharedSize : UInt64
  /-- reserved bytes of each tile; empty where the hardware has no tiles -/
  tileReserved : List UInt64 := []
  tilesTotalReserved : UInt64 := 0
  profiles : ListHead := {}
  refCount : UInt32 := 0
deriving DecidableEq

/-- a pool with nothing reserved -/
def Pool.fresh (direction : Direction) (size : UInt64) (mode : ThresholdMode) (tiles : Nat) : Pool :=
  { direction, size, mode, sharedSize := size, tileReserved := List.replicate tiles 0 }

/-- a buffer profile -/
structure Profile where
  size : UInt64
  mode : ProfileMode
  threshold : Threshold
  xoff : UInt64 := 0
  xon : UInt64 := 0
  poolLink : Option Link := none
  consumers : ListHead := {}
  refCount : UInt32 := 0
deriving DecidableEq

namespace Profile

/-- the pool a profile belongs to -/
def pool? (p : Profile) : Option Key := p.poolLink.map Link.owner

/-- the memory set aside for traffic in flight when the sender is told to stop: the larger of the two marks -/
def headroom (p : Profile) : UInt64 := max p.xoff p.xon

end Profile

/-- a priority group or a queue of a port -/
structure Subqueue where
  index : UInt32
  portLink : Option Link := none
  profileLink : Option Link := none
deriving DecidableEq

/-- a port -/
structure Port where
  hardwareNumber : UInt32
  tile : UInt32
  priorityGroups : ListHead := {}
  queues : ListHead := {}
  profileLink : Option Link := none
  refCount : UInt32 := 0
deriving DecidableEq

/-- a record of the buffer store -/
inductive Record where
  | pool (p : Pool)
  | profile (p : Profile)
  | priorityGroup (g : Subqueue)
  | queue (q : Subqueue)
  | port (p : Port)
deriving DecidableEq

namespace Record

/-- the pool of a pool record -/
def asPool? : Record → Option Pool
  | pool p => some p
  | _ => none

/-- the profile of a profile record -/
def asProfile? : Record → Option Profile
  | profile p => some p
  | _ => none

/-- the port of a port record -/
def asPort? : Record → Option Port
  | port p => some p
  | _ => none

/-- changes the pool of a pool record -/
def mapPool (f : Pool → Pool) : Record → Record
  | pool p => pool (f p)
  | r => r

/-- changes the profile of a profile record -/
def mapProfile (f : Profile → Profile) : Record → Record
  | profile p => profile (f p)
  | r => r

/-- changes the port of a port record -/
def mapPort (f : Port → Port) : Record → Record
  | port p => port (f p)
  | r => r

/-! ## Reference counts -/

/-- how many members the record's lists have; priority groups and queues own no list and count nothing -/
def refCount : Record → UInt32
  | pool p => p.refCount
  | profile p => p.refCount
  | port p => p.refCount
  | priorityGroup _ | queue _ => 0

/-- puts a reference count into a record that has one -/
def setRefCount (n : UInt32) : Record → Record
  | pool p => pool { p with refCount := n }
  | profile p => profile { p with refCount := n }
  | port p => port { p with refCount := n }
  | r => r

/-- whether the record counts references -/
def countsRefs : Record → Bool
  | priorityGroup _ | queue _ => false
  | _ => true

/-- one reference more, up to the largest count -/
def retain (r : Record) : Record :=
  if r.refCount.toNat + 1 < UInt32.size then r.setRefCount (r.refCount + 1) else r

/-- one reference less, if there is one to give back -/
def giveBack? (r : Record) : Option Record :=
  if r.countsRefs ∧ 0 < r.refCount then some (r.setRefCount (r.refCount - 1)) else none

/-! ## Lists owned and lists joined -/

/-- the head of a list the record owns -/
def head? (roster : Roster) : Record → Option ListHead
  | pool p => if roster = .poolProfiles then some p.profiles else none
  | profile p => if roster = .profileConsumers then some p.consumers else none
  | port p =>
    if roster = .portPriorityGroups then some p.priorityGroups
    else if roster = .portQueues then some p.queues
    else none
  | _ => none

/-- changes the head of a list the record owns -/
def mapHead (roster : Roster) (f : ListHead → ListHead) : Record → Record
  | pool p => if roster = .poolProfiles then pool { p with profiles := f p.profiles } else pool p
  | profile p => if roster = .profileConsumers then profile { p with consumers := f p.consumers } else profile p
  | port p =>
    if roster = .portPriorityGroups then port { p with priorityGroups := f p.priorityGroups }
    else if roster = .portQueues then port { p with queues := f p.queues }
    else port p
  | r => r

/-- the record's place in a list it can be in: `none` if it cannot, `some none` if it is not -/
def link? (roster : Roster) : Record → Option (Option Link)
  | profile p => if roster = .poolProfiles then some p.poolLink else none
  | priorityGroup g =>
    if roster = .profileConsumers then some g.profileLink
    else if roster = .portPriorityGroups then some g.portLink
    else none
  | queue q =>
    if roster = .profileConsumers then some q.profileLink
    else if roster = .portQueues then some q.portLink
    else none
  | port p => if roster = .profileConsumers then some p.profileLink else none
  | pool _ => none

/-- changes the record's place in a list it can be in -/
def mapLink (roster : Roster) (f : Option Link → Option Link) : Record → Record
  | profile p => if roster = .poolProfiles then profile { p with poolLink := f p.poolLink } else profile p
  | priorityGroup g =>
    if roster = .profileConsumers then priorityGroup { g with profileLink := f g.profileLink }
    else if roster = .portPriorityGroups then priorityGroup { g with portLink := f g.portLink }
    else priorityGroup g
  | queue q =>
    if roster = .profileConsumers then queue { q with profileLink := f q.profileLink }
    else if roster = .portQueues then queue { q with portLink := f q.portLink }
    else queue q
  | port p =>
    if roster = .profileConsumers then port { p with profileLink := f p.profileLink } else port p
  | pool p => pool p

/-- the owner of the list of a kind that the record is in -/
def ownerIn? (roster : Roster) (r : Record) : Option Key :=
  ((r.link? roster).bind id).map Link.owner

/-- the lists the record is in, with their owners -/
def memberships (r : Record) : List (Roster × Key) :=
  Roster.all.filterMap fun roster => (r.ownerIn? roster).map fun owner => (roster, owner)

/-- the port of a priority group or queue -/
def parentPort? : Record → Option Key
  | priorityGroup g => g.portLink.map Link.owner
  | queue q => q.portLink.map Link.owner
  | _ => none

/-- the profile a consumer is bound to -/
def boundProfile? (r : Record) : Option Key := r.ownerIn? .profileConsumers

theorem head?_mapHead (roster l : Roster) (f : ListHead → ListHead) (r : Record) :
    (r.mapHead roster f).head? l = if l = roster then (r.head? l).map f else r.head? l := by
  cases r <;> cases roster <;> cases l <;> rfl

theorem link?_mapLink (roster l : Roster) (f : Option Link → Option Link) (r : Record) :
    (r.mapLink roster f).link? l = if l = roster then (r.link? l).map f else r.link? l := by
  cases r <;> cases roster <;> cases l <;> rfl

theorem link?_mapHead (roster l : Roster) (f : ListHead → ListHead) (r : Record) :
    (r.mapHead roster f).link? l = r.link? l := by
  cases r <;> cases roster <;> cases l <;> rfl

theorem head?_mapLink (roster l : Roster) (f : Option Link → Option Link) (r : Record) :
    (r.mapLink roster f).head? l = r.head? l := by
  cases r <;> cases roster <;> cases l <;> rfl

end Record

end SharedBuffer
