/-
Creating, resizing and removing pools.

For each direction the switch takes a limited number of pools, and their sizes together must not exceed its memory.
-/
import SharedBuffer.Attribute.Table
import SharedBuffer.Manager.Basic

namespace SharedBuffer

/-! ## Attributes of a request -/

/-- the position and decoded value of an attribute that may be given -/
def optionalAttribute {α : Type} (attrs : List Attribute) (id : UInt32) (name : String)
    (decode : AttributeValue → Option α) : Except Fault (Option (Nat × α)) :=
  match findAttribute? attrs id with
  | none => .ok none
  | some (index, a) =>
    match decode a.value with
    | some v => .ok (some (index, v))
    | none => .error (.badValueAt index ("bad value for " ++ name))

/-- the position and decoded value of an attribute that has to be given -/
def requiredAttribute {α : Type} (attrs : List Attribute) (id : UInt32) (name : String)
    (decode : AttributeValue → Option α) : Except Fault (Nat × α) := do
  match ← optionalAttribute attrs id name decode with
  | some found => .ok found
  | none => .error (.mandatoryAttributeMissing name)

/-- the decoded value of the attribute of a set request -/
def valueOf {α : Type} (a : Attribute) (decode : AttributeValue → Option α) : Except Fault α :=
  match decode a.value with
  | some v => .ok v
  | none => .error (.badValueAt 0 ("bad value " ++ a.value.text))

/-- the value behind a code at a position of the request -/
def decodeAt {α : Type} (index : Nat) (what : String) (code : Int32) : Option α → Except Fault α
  | some v => .ok v
  | none => .error (.badValueAt index (what ++ " " ++ toString code.toInt))

/-! ## Capacity of a direction -/

namespace Manager

/-- the pools of a direction, one of them left out if it is named -/
def poolsOf (m : Manager) (direction : Direction) (except : Option Key) : List Pool :=
  (m.store.ofKind .pool).filterMap fun (k, r) =>
    r.asPool?.filter fun p => p.direction = direction && except ≠ some k

/-- refuses a pool of a size that has no room beside the others of its direction; a pool that is being resized is
left out of these and needs no place of its own -/
def checkDirection (m : Manager) (direction : Direction) (resized : Option Key) (size : UInt64) :
    Except Fault Unit :=
  let others := m.poolsOf direction resized
  let limit := m.hardware.maxPoolsPerDirection
  let total := others.foldl (fun sum p => saturatingAdd sum p.size) size
  if resized.isNone && limit.toNat ≤ others.length then
    .error (.insufficientResources (direction.label ++ " pool limit of " ++ toString limit.toNat ++ " reached"))
  else if m.hardware.totalBytes < total then
    .error (.insufficientResources (direction.label ++ " pools would need " ++ toString total.toNat ++ " of " ++
      toString m.hardware.totalBytes.toNat ++ " buffer bytes"))
  else .ok ()

end Manager

/-- what a create request asks of a pool -/
structure PoolRequest where
  direction : Direction
  size : UInt64
  mode : ThresholdMode
deriving DecidableEq

/-- reads the attributes of a pool to create; the mode is dynamic unless given -/
def PoolRequest.ofAttributes (attrs : List Attribute) : Except Fault PoolRequest := do
  let required {α : Type} (a : PoolAttribute) (decode : AttributeValue → Option α) :=
    requiredAttribute attrs a.id a.name decode
  let (directionIndex, directionCode) ← required .direction AttributeValue.asS32?
  let direction ← decodeAt directionIndex "unknown pool type" directionCode (Direction.ofCode? directionCode)
  let (_, size) ← required .size AttributeValue.asU64?
  let given ← optionalAttribute attrs PoolAttribute.thresholdMode.id PoolAttribute.thresholdMode.name
    AttributeValue.asS32?
  let mode ← match given with
    | some (index, code) => decodeAt index "unknown threshold mode" code (ThresholdMode.ofCode? code)
    | none => .ok .dynamic
  return ⟨direction, size, mode⟩

namespace ManagerM

/-! ## Requests -/

/-- creates a pool, or fails -/
def tryCreatePool (attrs : List Attribute) : ManagerM Key := do
  let request ← reading fun _ => PoolRequest.ofAttributes attrs
  reading fun m => m.checkDirection request.direction none request.size
  let tiles ← reading fun m => .ok m.hardware.tileSlots
  let k ← onStore (Store.insertNew .pool (.pool (Pool.fresh request.direction request.size request.mode tiles)))
  announcePool k
  return k

/-- creates a pool, counted and on record -/
def createPoolFrom (attrs : List Attribute) : ManagerM Key := do
  match ← attempt (tryCreatePool attrs) with
  | .ok k =>
    count fun c => { c with poolsCreated := bump c.poolsCreated }
    logSnapshot .poolLifecycle "create_buffer_pool" k
    return k
  | .error fault =>
    logRefusal .poolLifecycle "create_buffer_pool" none fault
    throw fault

/-- gives a pool another size -/
def resizePool (pool : Key) (size : UInt64) : ManagerM Unit := do
  let p ← readingStore fun s => s.poolAt pool
  reading fun m => m.checkDirection p.direction (some pool) size
  let figures ← plan (.poolSize pool size)
  modifyPool pool fun p => { p with size }
  commit figures

/-- sets an attribute of a pool, or fails -/
def trySetPool (pool : Key) (a : Attribute) : ManagerM Unit := do
  match PoolAttribute.ofId? a.id with
  | some .size => resizePool pool (← reading fun _ => valueOf a AttributeValue.asU64?)
  | some other => throw (.badAttributeAt 0 (other.name ++ " cannot be set"))
  | none => throw (.unknownAt 0)

/-- sets an attribute of a pool, on record -/
def setPool (pool : Key) (a : Attribute) : ManagerM Unit := do
  match ← attempt (trySetPool pool a) with
  | .ok () => logSnapshot .attributeChange "set_buffer_pool_attribute" pool
  | .error fault =>
    logRefusal .attributeChange "set_buffer_pool_attribute" (some pool) fault
    throw fault

/-- removes a pool that no profile belongs to -/
def removePool (pool : Key) : ManagerM Unit := do
  match ← attempt (onLists (Store.removeAssociated pool)) with
  | .ok _ =>
    count fun c => { c with poolsRemoved := bump c.poolsRemoved }
    logChange .poolLifecycle "remove_buffer_pool" pool (.obj [])
    announceOf .pool pool fun gone => .poolRemoved gone.raw
  | .error fault =>
    logRefusal .poolLifecycle "remove_buffer_pool" (some pool) fault
    throw fault

end ManagerM

end SharedBuffer
