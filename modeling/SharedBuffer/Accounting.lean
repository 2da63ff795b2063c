/-
What the pools would hold if a change were made.

A pool's shared size is its size less what is reserved from it. Only profiles with a consumer reserve: without tiles
each its size once; with tiles its size, and in ingress pools also its headroom, on every tile where it has a consumer.
`plan` evaluates a change against the store as it stands and answers the new figures of every pool concerned, or
refuses if one of them could not hold its reservations; the store is not touched.
-/
import SharedBuffer.Hardware.Profile
import SharedBuffer.Store.Roster

namespace SharedBuffer

/-- a change that may move reservations -/
inductive Change where
  /-- bind a consumer to a profile, or to none -/
  | bind (consumer : Key) (profile : Option Key)
  | profileSize (profile : Key) (size : UInt64)
  | profileHeadroom (profile : Key) (xoff xon : UInt64)
  | profilePool (profile pool : Key)
  | poolSize (pool : Key) (size : UInt64)
  /-- nothing changes; the figures are derived as things stand -/
  | recompute (pool : Key)
deriving DecidableEq

/-- the figures derived for a pool -/
structure Totals where
  sharedSize : UInt64
  tileReserved : List UInt64 := []
  tilesTotalReserved : UInt64 := 0
deriving DecidableEq

/-- the list with runs of equal elements cut to one -/
def dedupRuns {α : Type} [DecidableEq α] : List α → List α
  | [] => []
  | a :: rest => if rest.head? = some a then dedupRuns rest else a :: dedupRuns rest

/-- the record of a key, for a request that needs one -/
def Store.require (s : Store Record) (k : Key) : Except Fault Record := (s.get k).mapError StoreError.toFault

/-- a pool by its key -/
def Store.poolAt (s : Store Record) (k : Key) : Except Fault Pool := do
  match (← s.require k).asPool? with
  | some p => .ok p
  | none => .error (.notFound ("buffer pool " ++ k.text))

/-- a profile by its key -/
def Store.profileAt (s : Store Record) (k : Key) : Except Fault Profile := do
  match (← s.require k).asProfile? with
  | some p => .ok p
  | none => .error (.notFound ("buffer profile " ++ k.text))

/-- the members of an owner's list, for a request that needs them -/
def Store.requireMembers (s : Store Record) (roster : Roster) (owner : Key) : Except Fault (List Key) :=
  (s.members roster owner).mapError LinkError.toFault

namespace Accounting

/-! ## The store as the change would leave it -/

/-- a pool's size and direction -/
def poolSize (s : Store Record) (c : Change) (pool : Key) : Except Fault (UInt64 × Direction) := do
  let p ← s.poolAt pool
  let size := match c with
    | .poolSize changed size => if changed = pool then size else p.size
    | _ => p.size
  return (size, p.direction)

/-- the pool a profile belongs to, as things stand -/
def poolOf (s : Store Record) (profile : Key) : Except Fault Key := do
  match (← s.require profile).asProfile?.bind Profile.pool? with
  | some pool => .ok pool
  | none => .error (.notFound ("pool of buffer profile " ++ profile.text))

/-- the profiles of a pool -/
def profilesOf (s : Store Record) (c : Change) (pool : Key) : Except Fault (List Key) := do
  let profiles ← s.requireMembers .poolProfiles pool
  return match c with
    | .profilePool moved target =>
      profiles.filter (fun p => p ≠ moved) ++ (if target = pool then [moved] else [])
    | _ => profiles

/-- the consumers of a profile -/
def consumersOf (s : Store Record) (c : Change) (profile : Key) : Except Fault (List Key) := do
  let consumers ← s.requireMembers .profileConsumers profile
  return match c with
    | .bind consumer target =>
      consumers.filter (fun x => x ≠ consumer) ++ (if target = some profile then [consumer] else [])
    | _ => consumers

/-- a profile's size and headroom -/
def chargeOf (s : Store Record) (c : Change) (profile : Key) : Except Fault (UInt64 × UInt64) := do
  let p ← s.profileAt profile
  let size := match c with
    | .profileSize changed size => if changed = profile then size else p.size
    | _ => p.size
  let headroom := match c with
    | .profileHeadroom changed xoff xon => if changed = profile then max xoff xon else p.headroom
    | _ => p.headroom
  return (size, headroom)

/-- the tile of a consumer: that of its port, or its own if it is one -/
def tileOfConsumer (s : Store Record) (consumer : Key) : Except Fault UInt32 := do
  match ← s.require consumer with
  | .port p => .ok p.tile
  | r =>
    match r.parentPort? with
    | none => .error (.invalidParameter (consumer.text ++ " is not a buffer consumer"))
    | some port =>
      match (← s.require port).asPort? with
      | some p => .ok p.tile
      | none => .error (.notFound ("port " ++ port.text))

/-! ## Figures of one pool -/

/-- reservations that no 64-bit amount can hold -/
def overflow (pool : Key) : Fault := .insufficientResources ("reservation overflow in pool " ++ pool.text)

/-- an amount that fits, or the refusal of the pool -/
def orOverflow {α : Type} (pool : Key) : Option α → Except Fault α
  | some a => .ok a
  | none => .error (overflow pool)

/-- what some profiles reserve where there are no tiles, on top of what is reserved already -/
def reserveFlat (s : Store Record) (c : Change) (pool : Key) (reserved : UInt64) :
    List Key → Except Fault UInt64
  | [] => .ok reserved
  | profile :: rest => do
    if (← consumersOf s c profile).isEmpty then reserveFlat s c pool reserved rest
    else
      let (size, _) ← chargeOf s c profile
      reserveFlat s c pool (← orOverflow pool (checkedAdd reserved size)) rest

/-- adds a charge to the tiles that are in a list -/
def chargeTiles (charge : UInt64) (hit : List Nat) (tileReserved : List UInt64) : Option (List UInt64) :=
  tileReserved.zipIdx.mapM fun (reserved, tile) =>
    if tile ∈ hit then checkedAdd reserved charge else some reserved

/-- what a profile takes from each tile it has a consumer on -/
def tileCharge : Direction → (size headroom : UInt64) → Option UInt64
  | .ingress, size, headroom => checkedAdd size headroom
  | .egress, size, _ => some size

/-- what some profiles reserve on each tile, on top of what is reserved already -/
def reserveTiled (s : Store Record) (c : Change) (pool : Key) (direction : Direction)
    (tileReserved : List UInt64) : List Key → Except Fault (List UInt64)
  | [] => .ok tileReserved
  | profile :: rest => do
    let consumers ← consumersOf s c profile
    if consumers.isEmpty then reserveTiled s c pool direction tileReserved rest
    else
      let (size, headroom) ← chargeOf s c profile
      let charge ← orOverflow pool (tileCharge direction size headroom)
      let tiles ← consumers.mapM (tileOfConsumer s)
      let hit := tiles.map fun tile => min tile.toNat (tileReserved.length - 1)
      reserveTiled s c pool direction (← orOverflow pool (chargeTiles charge hit tileReserved)) rest

/-- amounts between brackets -/
def amountsText (amounts : List UInt64) : String :=
  "[" ++ String.intercalate ", " (amounts.map fun n => toString n.toNat) ++ "]"

/-- the figures of a pool after a change -/
def totals (hw : Hardware) (s : Store Record) (c : Change) (pool : Key) : Except Fault Totals := do
  let (size, direction) ← poolSize s c pool
  let profiles ← profilesOf s c pool
  if hw.isTiled then
    let reserved ← reserveTiled s c pool direction (List.replicate hw.tileSlots 0) profiles
    match hw.policy.sharedSize? size reserved with
    | some sharedSize => .ok ⟨sharedSize, reserved, hw.policy.total reserved⟩
    | none => .error (.insufficientResources ("pool " ++ pool.text ++ " of " ++ toString size.toNat ++
        " bytes cannot hold tile reservations " ++ amountsText reserved ++
        " (" ++ hw.policy.name ++ ")"))
  else
    let reserved ← reserveFlat s c pool 0 profiles
    match checkedSub size reserved with
    | some sharedSize => .ok { sharedSize }
    | none => .error (.insufficientResources ("pool " ++ pool.text ++ " of " ++ toString size.toNat ++
        " bytes cannot hold " ++ toString reserved.toNat ++ " reserved bytes"))

/-! ## The pools a change concerns -/

/-- the pools whose figures depend on a change -/
def affectedPools (s : Store Record) (c : Change) : Except Fault (List Key) := do
  let pools ← match c with
    | .bind consumer profile => do
      let current ← match (← s.require consumer).boundProfile? with
        | some bound => do .ok [← poolOf s bound]
        | none => .ok []
      let target ← match profile with
        | some p => do .ok [← poolOf s p]
        | none => .ok []
      .ok (current ++ target)
    | .profileSize profile _ => do .ok [← poolOf s profile]
    | .profileHeadroom profile _ _ => do .ok [← poolOf s profile]
    | .profilePool profile pool => do .ok [← poolOf s profile, pool]
    | .poolSize pool _ => .ok [pool]
    | .recompute pool => .ok [pool]
  return dedupRuns pools

/-- the new figures of every pool a change concerns -/
def plan (hw : Hardware) (s : Store Record) (c : Change) : Except Fault (List (Key × Totals)) := do
  (← affectedPools s c).mapM fun pool => do .ok (pool, ← totals hw s c pool)

end Accounting

end SharedBuffer
