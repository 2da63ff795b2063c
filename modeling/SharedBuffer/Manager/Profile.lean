/-
Creating, changing, moving and removing profiles.

A profile holds one threshold, in the mode that counts for it: its own, or its pool's if it states none. It may move to
another pool only where that mode and the direction stay what they are. Headroom belongs to ingress pools.
-/
import SharedBuffer.Manager.Pool

namespace SharedBuffer

/-- the threshold of a new profile: the one of its mode, and never both -/
def resolveThreshold (mode : ThresholdMode) (dynamic : Option (Nat × Int8)) (fixed : Option (Nat × UInt64)) :
    Except Fault Threshold :=
  match mode, dynamic, fixed with
  | _, some _, some _ => .error (.invalidParameter "static and dynamic thresholds are mutually exclusive")
  | .dynamic, some (_, alpha), none => .ok (.dynamic alpha)
  | .dynamic, none, some (index, _) => .error (.badAttributeAt index "static threshold on a dynamic profile")
  | .dynamic, none, none => .error (.mandatoryAttributeMissing ProfileAttribute.dynamicThreshold.name)
  | .static, none, some (_, limit) => .ok (.static limit)
  | .static, some (index, _), none => .error (.badAttributeAt index "dynamic threshold on a static profile")
  | .static, none, none => .error (.mandatoryAttributeMissing ProfileAttribute.staticThreshold.name)

/-- the refusal of headroom outside ingress pools -/
def headroomReason : String := "headroom thresholds apply to ingress pools only"

/-- the first position at which headroom is given -/
def firstHeadroom? (xoff xon : Option (Nat × UInt64)) : Option Nat :=
  match xoff, xon with
  | some (i, _), some (j, _) => some (min i j)
  | some (i, _), none => some i
  | none, some (j, _) => some j
  | none, none => none

namespace Manager

/-- reads the attributes of a profile to create: the pool it goes to, and the profile -/
def profileOfAttributes (m : Manager) (attrs : List Attribute) : Except Fault (Key × Profile) := do
  let required {α : Type} (a : ProfileAttribute) (decode : AttributeValue → Option α) :=
    requiredAttribute attrs a.id a.name decode
  let optional {α : Type} (a : ProfileAttribute) (decode : AttributeValue → Option α) :=
    optionalAttribute attrs a.id a.name decode
  let (poolIndex, poolId) ← required .poolId AttributeValue.asOid?
  let (_, size) ← required .reservedSize AttributeValue.asU64?
  let pool ← match m.resolve? .pool poolId with
    | some k => .ok k
    | none => .error (.badValueAt poolIndex ("unknown buffer pool " ++ hexText poolId.toNat))
  let owner ← m.store.poolAt pool
  let mode ← match ← optional .thresholdMode AttributeValue.asS32? with
    | some (index, code) => decodeAt index "unknown threshold mode" code (ProfileMode.ofCode? code)
    | none => .ok .inherited
  let dynamic ← optional .dynamicThreshold AttributeValue.asI8?
  let fixed ← optional .staticThreshold AttributeValue.asU64?
  let threshold ← resolveThreshold (mode.effective owner.mode) dynamic fixed
  let xoff ← optional .xoffThreshold AttributeValue.asU64?
  let xon ← optional .xonThreshold AttributeValue.asU64?
  match owner.direction, firstHeadroom? xoff xon with
  | .egress, some index => .error (.badAttributeAt index headroomReason)
  | _, _ =>
    .ok (pool, { size, mode, threshold, xoff := xoff.elim 0 Prod.snd, xon := xon.elim 0 Prod.snd })

end Manager

namespace ManagerM

/-! ## Creation -/

/-- takes back a record that could not be attached -/
def discard (k : Key) : ManagerM Unit := update fun m => { m with store := (m.store.remove k).release k }

/-- creates a profile, or fails -/
def tryCreateProfile (attrs : List Attribute) : ManagerM Key := do
  let (pool, profile) ← reading fun m => m.profileOfAttributes attrs
  let k ← onStore (Store.insertNew .profile (.profile profile))
  match ← attempt (onLists (Store.attach .poolProfiles pool k)) with
  | .ok () =>
    announcePool pool
    announceProfile k
    return k
  | .error fault =>
    discard k
    throw fault

/-- creates a profile, counted and on record -/
def createProfileFrom (attrs : List Attribute) : ManagerM Key := do
  match ← attempt (tryCreateProfile attrs) with
  | .ok k =>
    count fun c => { c with profilesCreated := bump c.profilesCreated }
    logSnapshot .profileLifecycle "create_buffer_profile" k
    return k
  | .error fault =>
    logRefusal .profileLifecycle "create_buffer_profile" none fault
    throw fault

/-! ## Changes -/

/-- the pool a profile belongs to -/
def poolOf (profile : Key) : ManagerM Key :=
  readingStore fun s => do Store.poolOfProfile profile (← s.profileAt profile)

/-- moves a profile, with its consumers, to another pool of the same direction and of the mode that counts for it -/
def moveProfile (profile : Key) (poolId : ObjectId) : ManagerM Unit := do
  let target ← reading fun m => match m.resolve? .pool poolId with
    | some k => .ok k
    | none => .error (.badValueAt 0 ("unknown buffer pool " ++ hexText poolId.toNat))
  let mode ← readingStore fun s => do return (← s.profileAt profile).mode
  let current ← poolOf profile
  if current = target then return
  let source ← readingStore fun s => s.poolAt current
  let destination ← readingStore fun s => s.poolAt target
  if source.direction ≠ destination.direction then
    throw (.badAttributeAt 0 ("cannot move a " ++ source.direction.label ++ " profile to a " ++
      destination.direction.label ++ " pool"))
  let needed := mode.effective source.mode
  if destination.mode ≠ needed then
    throw (.badAttributeAt 0 ("profile needs a " ++ needed.label ++ " pool, target is " ++ destination.mode.label))
  let figures ← plan (.profilePool profile target)
  onLists (Store.detach .poolProfiles current profile)
  onLists (Store.attach .poolProfiles target profile)
  commit figures
  announceProfile profile

/-- gives a profile another size -/
def resizeProfile (profile : Key) (size : UInt64) : ManagerM Unit := do
  let figures ← plan (.profileSize profile size)
  modifyProfile profile fun p => { p with size }
  commit figures
  announceProfile profile

/-- gives a profile another threshold of the mode that counts for it; its pool is announced too -/
def setThreshold (profile : Key) (threshold : Threshold) : ManagerM Unit := do
  let p ← readingStore fun s => s.profileAt profile
  let pool ← poolOf profile
  let mode ← readingStore fun s => do return p.mode.effective (← s.poolAt pool).mode
  if threshold.mode ≠ mode then
    throw (.badAttributeAt 0 ("profile threshold mode is " ++ mode.label))
  modifyProfile profile fun p => { p with threshold }
  announcePool pool
  announceProfile profile

/-- gives a profile other marks for its headroom; one that is not given stays -/
def setHeadroom (profile : Key) (newXoff newXon : Option UInt64) : ManagerM Unit := do
  let p ← readingStore fun s => s.profileAt profile
  let pool ← poolOf profile
  if (← readingStore fun s => s.poolAt pool).direction ≠ .ingress then
    throw (.badAttributeAt 0 headroomReason)
  let xoff := newXoff.getD p.xoff
  let xon := newXon.getD p.xon
  let figures ← plan (.profileHeadroom profile xoff xon)
  modifyProfile profile fun p => { p with xoff, xon }
  commit figures
  announceProfile profile

/-- sets an attribute of a profile, or fails -/
def trySetProfile (profile : Key) (a : Attribute) : ManagerM Unit := do
  match ProfileAttribute.ofId? a.id with
  | some .poolId => moveProfile profile (← reading fun _ => valueOf a AttributeValue.asOid?)
  | some .reservedSize => resizeProfile profile (← reading fun _ => valueOf a AttributeValue.asU64?)
  | some .dynamicThreshold => setThreshold profile (.dynamic (← reading fun _ => valueOf a AttributeValue.asI8?))
  | some .staticThreshold => setThreshold profile (.static (← reading fun _ => valueOf a AttributeValue.asU64?))
  | some .xoffThreshold => setHeadroom profile (some (← reading fun _ => valueOf a AttributeValue.asU64?)) none
  | some .xonThreshold => setHeadroom profile none (some (← reading fun _ => valueOf a AttributeValue.asU64?))
  | some other => throw (.badAttributeAt 0 (other.name ++ " cannot be set"))
  | none => throw (.unknownAt 0)

/-- sets an attribute of a profile, on record -/
def setProfile (profile : Key) (a : Attribute) : ManagerM Unit := do
  match ← attempt (trySetProfile profile a) with
  | .ok () => logSnapshot .attributeChange "set_buffer_profile_attribute" profile
  | .error fault =>
    logRefusal .attributeChange "set_buffer_profile_attribute" (some profile) fault
    throw fault

/-! ## Removal -/

/-- removes a profile without consumers, or fails -/
def tryRemoveProfile (profile : Key) : ManagerM Unit := do
  let pool ← poolOf profile
  let _ ← onLists (Store.removeAssociated profile)
  commit (← plan (.recompute pool))

/-- removes a profile without consumers, counted and on record -/
def removeProfile (profile : Key) : ManagerM Unit := do
  match ← attempt (tryRemoveProfile profile) with
  | .ok () =>
    count fun c => { c with profilesRemoved := bump c.profilesRemoved }
    logChange .profileLifecycle "remove_buffer_profile" profile (.obj [])
    announceOf .profile profile fun gone => .profileRemoved gone.raw
  | .error fault =>
    logRefusal .profileLifecycle "remove_buffer_profile" (some profile) fault
    throw fault

end ManagerM

end SharedBuffer
