/-
Attaching records to lists, detaching them, and walking the lists.

Every attachment raises the owner's reference count and every detachment lowers it, so a record whose count is zero
owns only empty lists. An operation checks both ends before it changes a record; where a neighbour in the list turns
out to be missing it stops, and what it changed until then stays changed.
-/
import SharedBuffer.Buffer.Record
import SharedBuffer.Store.Basic

namespace SharedBuffer

/-- why an operation on a list is refused -/
inductive LinkError where
  | ownerNotFound (key : Key)
  | memberNotFound (key : Key)
  | noSuchList (key : Key) (roster : Roster)
  | alreadyAttached (member owner : Key)
  | notAttached (member owner : Key)
  | objectInUse (key : Key) (refCount : UInt32)
  | store (e : StoreError)
deriving DecidableEq

namespace LinkError

/-- the name of the cause -/
def label : LinkError → String
  | ownerNotFound _ => "OwnerNotFound"
  | memberNotFound _ => "MemberNotFound"
  | noSuchList _ _ => "NoSuchList"
  | alreadyAttached _ _ => "AlreadyAttached"
  | notAttached _ _ => "NotAttached"
  | objectInUse _ _ => "ObjectInUse"
  | store e => "Store/" ++ e.label

/-- the text of a list error -/
def message : LinkError → String
  | ownerNotFound key => "Owner not found: " ++ key.label
  | memberNotFound key => "Member not found: " ++ key.label
  | noSuchList key roster => key.label ++ " has no list " ++ roster.label
  | alreadyAttached member owner => member.label ++ " is already attached to " ++ owner.label
  | notAttached member owner => member.label ++ " is not attached to " ++ owner.label
  | objectInUse key refCount => key.label ++ " is referenced " ++ toString refCount.toNat ++ " times"
  | store e => e.message

/-- the fault a list error is reported as -/
def toFault : LinkError → Fault
  | ownerNotFound key => .notFound key.label
  | memberNotFound key => .notFound key.label
  | objectInUse key refCount =>
    .objectInUse (key.label ++ " (" ++ toString refCount.toNat ++ " references)")
  | alreadyAttached member owner => .alreadyExists (alreadyAttached member owner).message
  | notAttached member owner => .invalidParameter (notAttached member owner).message
  | noSuchList key roster => .invalidParameter (noSuchList key roster).message
  | store e => e.toFault

end LinkError

/-- an operation on the lists of a store that may fail; what it changed before it failed stays changed -/
abbrev LinkM := ExceptT LinkError (StateM (Store Record))

namespace LinkM

variable {α : Type}

/-- looks at the store -/
def reading (f : Store Record → Except LinkError α) : LinkM α := ExceptT.mk fun s => (f s, s)

/-- an operation of the store as one on lists -/
def ofStore (op : StoreM Record α) : LinkM α := ExceptT.mk fun s =>
  match op.run s with
  | (.ok a, s') => (.ok a, s')
  | (.error e, s') => (.error (.store e), s')

end LinkM

namespace Store

/-! ## Reference counts -/

/-- one reference more to a record; answers the new count -/
def incrementRef (k : Key) : StoreM Record UInt32 := do
  modify k Record.retain
  ExceptT.mk fun s => (.ok ((s.get? k).elim 0 Record.refCount), s)

/-- one reference less to a record; answers the new count -/
def decrementRef (k : Key) : StoreM Record UInt32 := ExceptT.mk fun s =>
  match s.get? k with
  | none => (.error (.notFound k), s)
  | some r =>
    match r.giveBack? with
    | some r' => (.ok r'.refCount, { s with records := s.records.modify k fun _ => r' })
    | none => (.error (.refCountUnderflow k), s)

/-! ## Heads and links -/

/-- the head of an owner's list -/
def ownerHead (s : Store Record) (roster : Roster) (owner : Key) : Except LinkError ListHead :=
  match s.get? owner with
  | none => .error (.ownerNotFound owner)
  | some r =>
    match r.head? roster with
    | some h => .ok h
    | none => .error (.noSuchList owner roster)

/-- a member's place in a list of a kind -/
def memberLink (s : Store Record) (roster : Roster) (member : Key) : Except LinkError (Option Link) :=
  match s.get? member with
  | none => .error (.memberNotFound member)
  | some r =>
    match r.link? roster with
    | some l => .ok l
    | none => .error (.noSuchList member roster)

/-- changes a member's place -/
def editLink (roster : Roster) (k : Key) (f : Option Link → Option Link) : LinkM Unit :=
  .ofStore (modify k (Record.mapLink roster f))

/-- changes an owner's head -/
def editHead (roster : Roster) (k : Key) (f : ListHead → ListHead) : LinkM Unit :=
  .ofStore (modify k (Record.mapHead roster f))

/-! ## Attaching and detaching -/

/-- puts a member at the end of an owner's list -/
def attach (roster : Roster) (owner member : Key) : LinkM Unit := do
  let head ← .reading fun s => s.ownerHead roster owner
  match ← .reading fun s => s.memberLink roster member with
  | some link => throw (.alreadyAttached member link.owner)
  | none => pure ()
  editLink roster member fun _ => some ⟨owner, head.last, none⟩
  match head.last with
  | some last => editLink roster last (Option.map fun l => { l with next := some member })
  | none => pure ()
  editHead roster owner fun h => ⟨h.first.or (some member), some member, h.length + 1⟩
  let _ ← .ofStore (incrementRef owner)

/-- a member's place in the list of an owner it is attached to -/
def linkUnder (s : Store Record) (roster : Roster) (owner member : Key) : Except LinkError Link := do
  let _ ← s.ownerHead roster owner
  match ← s.memberLink roster member with
  | some link => if link.owner = owner then .ok link else .error (.notAttached member owner)
  | none => .error (.notAttached member owner)

/-- takes a member out of an owner's list -/
def detach (roster : Roster) (owner member : Key) : LinkM Unit := do
  let link ← .reading fun s => s.linkUnder roster owner member
  if (← .reading fun s => .ok ((s.get? owner).elim 0 Record.refCount)) = 0 then
    throw (.store (.refCountUnderflow owner))
  match link.previous with
  | some previous => editLink roster previous (Option.map fun l => { l with next := link.next })
  | none => editHead roster owner fun h => { h with first := link.next }
  match link.next with
  | some next => editLink roster next (Option.map fun l => { l with previous := link.previous })
  | none => editHead roster owner fun h => { h with last := link.previous }
  editHead roster owner fun h => { h with length := h.length - (if h.length = 0 then 0 else 1) }
  editLink roster member fun _ => none
  let _ ← .ofStore (decrementRef owner)

/-! ## Walking -/

/-- the member after a key in a list of a kind -/
def nextMember? (s : Store Record) (roster : Roster) (k : Key) : Option Key :=
  (((s.get? k).bind (Record.link? roster)).bind id).bind Link.next

/-- the keys met from a cursor on, at most so many -/
def walk (s : Store Record) (roster : Roster) : Nat → Option Key → List Key
  | _, none => []
  | 0, some _ => []
  | n + 1, some k => k :: s.walk roster n (s.nextMember? roster k)

/-- the first members of an owner's list, at most so many -/
def membersUpTo (limit : Nat) (s : Store Record) (roster : Roster) (owner : Key) : Except LinkError (List Key) := do
  let head ← s.ownerHead roster owner
  return s.walk roster limit head.first

/-- the members of an owner's list, in the order they were attached; a walk that meets no key twice meets at most one
key more than there are records -/
def members (s : Store Record) (roster : Roster) (owner : Key) : Except LinkError (List Key) :=
  s.membersUpTo (s.size + 1) roster owner

/-! ## Removal -/

/-- whether nothing refers to a record -/
def canRemove (s : Store Record) (k : Key) : Except LinkError Bool :=
  match s.get? k with
  | some r => .ok (r.refCount == 0)
  | none => .error (.store (.notFound k))

/-- detaches a member from each of some lists -/
def detachAll (member : Key) : List (Roster × Key) → LinkM Unit
  | [] => pure ()
  | (roster, owner) :: rest => do
    detach roster owner member
    detachAll member rest

/-- takes out a record that nothing refers to, with its memberships and its handle -/
def removeAssociated (k : Key) : LinkM Record := do
  let r ← .reading fun s => (s.get k).mapError .store
  if 0 < r.refCount then throw (.objectInUse k r.refCount)
  detachAll k r.memberships
  let removed ← .reading fun s => (s.get k).mapError .store
  modifyThe (Store Record) fun s => (s.remove k).release k
  return removed

end Store

end SharedBuffer
