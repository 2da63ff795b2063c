/-
What each attribute of each kind of object may be used for, and the checks of requests against it.

A table lists the attributes of a kind with their value kinds and access rules. The checks look only at the table; the
first violation refuses the whole request:
- `checkCreate`: for each attribute in turn its id, whether it may be given, whether it was given before and the kind
  of its value; then that no mandatory one is missing;
- `checkSet`: the id, the access rule and the kind of value of one attribute;
- `checkGet`: the ids.
-/
import SharedBuffer.Attribute.Id
import SharedBuffer.Attribute.Value
import SharedBuffer.Fault

namespace SharedBuffer

/-- when an attribute may be given -/
structure Access where
  mandatoryOnCreate : Bool := false
  createOnly : Bool := false
  createAndSet : Bool := false
  readOnly : Bool := false
deriving DecidableEq

namespace Access

/-- the access rules as a bit set -/
def bits (a : Access) : Nat :=
  a.mandatoryOnCreate.toNat + 2 * a.createOnly.toNat + 4 * a.createAndSet.toNat + 8 * a.readOnly.toNat

/-- needed on create, fixed afterwards -/
def requiredFixed : Access := { mandatoryOnCreate := true, createOnly := true }
/-- needed on create, can be set later -/
def requiredSettable : Access := { mandatoryOnCreate := true, createAndSet := true }
/-- may be given on create, fixed afterwards -/
def optionalFixed : Access := { createOnly := true }
/-- may be given on create, can be set later -/
def optionalSettable : Access := { createAndSet := true }
/-- can only be read -/
def derived : Access := { readOnly := true }

end Access

/-- one row of an attribute table -/
structure AttributeSpec where
  id : UInt32
  name : String
  kind : ValueKind
  access : Access
deriving DecidableEq

namespace AttributeSpec

/-- whether a create request needs the attribute -/
def isMandatory (s : AttributeSpec) : Bool := s.access.mandatoryOnCreate
/-- whether the attribute can be set -/
def isSettable (s : AttributeSpec) : Bool := s.access.createAndSet
/-- whether the attribute can only be read -/
def isReadOnly (s : AttributeSpec) : Bool := s.access.readOnly

end AttributeSpec

/-! ## Tables -/

/-- the value kind and access rule of a pool attribute -/
def PoolAttribute.spec (a : PoolAttribute) : AttributeSpec :=
  let row (kind : ValueKind) (access : Access) : AttributeSpec := ⟨a.id, a.name, kind, access⟩
  match a with
  | .sharedSize => row .u64 .derived
  | .direction => row .s32 .requiredFixed
  | .size => row .u64 .requiredSettable
  | .thresholdMode => row .s32 .optionalFixed
  | .tilesTotalReserved => row .u64 .derived
  | .tileReserved => row .u64List .derived

/-- the value kind and access rule of a profile attribute -/
def ProfileAttribute.spec (a : ProfileAttribute) : AttributeSpec :=
  let row (kind : ValueKind) (access : Access) : AttributeSpec := ⟨a.id, a.name, kind, access⟩
  match a with
  | .poolId => row .oid .requiredSettable
  | .reservedSize => row .u64 .requiredSettable
  | .thresholdMode => row .s32 .optionalFixed
  | .dynamicThreshold => row .i8 .optionalSettable
  | .staticThreshold => row .u64 .optionalSettable
  | .xoffThreshold => row .u64 .optionalSettable
  | .xonThreshold => row .u64 .optionalSettable
  | .referenceCount => row .u32 .derived
  | .consumerList => row .objectList .derived

/-- the value kind and access rule of a priority group attribute -/
def PriorityGroupAttribute.spec (a : PriorityGroupAttribute) : AttributeSpec :=
  let row (kind : ValueKind) (access : Access) : AttributeSpec := ⟨a.id, a.name, kind, access⟩
  match a with
  | .profile => row .oid .optionalSettable
  | .port => row .oid .requiredFixed
  | .index => row .u32 .requiredFixed

/-- the value kind and access rule of a queue attribute -/
def QueueAttribute.spec (a : QueueAttribute) : AttributeSpec :=
  let row (kind : ValueKind) (access : Access) : AttributeSpec := ⟨a.id, a.name, kind, access⟩
  match a with
  | .port => row .oid .requiredFixed
  | .index => row .u32 .requiredFixed
  | .profile => row .oid .optionalSettable

/-- the value kind and access rule of a port attribute -/
def PortAttribute.spec (a : PortAttribute) : AttributeSpec :=
  let row (kind : ValueKind) (access : Access) : AttributeSpec := ⟨a.id, a.name, kind, access⟩
  match a with
  | .hardwareNumber => row .u32 .requiredFixed
  | .groupCount => row .u32 .derived
  | .groupList => row .objectList .derived
  | .queueCount => row .u32 .derived
  | .queueList => row .objectList .derived
  | .ingressProfile => row .oid .optionalSettable
  | .tile => row .u32 .derived

/-- the attribute table of a kind of object; switches have none -/
def attributeTable? : ObjectKind → Option (List AttributeSpec)
  | .pool => some (PoolAttribute.all.map PoolAttribute.spec)
  | .profile => some (ProfileAttribute.all.map ProfileAttribute.spec)
  | .priorityGroup => some (PriorityGroupAttribute.all.map PriorityGroupAttribute.spec)
  | .queue => some (QueueAttribute.all.map QueueAttribute.spec)
  | .port => some (PortAttribute.all.map PortAttribute.spec)
  | .switch => none

/-- the row of a table for an id -/
def specIn? (table : List AttributeSpec) (id : UInt32) : Option AttributeSpec :=
  table.find? (fun s => s.id == id)

/-- the table row of an attribute of a kind of object -/
def attributeSpec? (kind : ObjectKind) (id : UInt32) : Option AttributeSpec :=
  (attributeTable? kind).bind fun table => specIn? table id

/-- the attribute table of a kind, for a request that needs one -/
def requireTable (kind : ObjectKind) : Except Fault (List AttributeSpec) :=
  match attributeTable? kind with
  | some table => .ok table
  | none => .error (.notSupported ("attributes of " ++ kind.name))

/-! ## Checks -/

/-- what is wrong with the attribute at a position of a create request, after the ids `seen` before it -/
def createViolation? (table : List AttributeSpec) (seen : List UInt32) (index : Nat) (a : Attribute) :
    Option Fault :=
  match specIn? table a.id with
  | none => some (.unknownAt index)
  | some spec =>
    if spec.isReadOnly then some (.badAttributeAt index (spec.name ++ " is read-only"))
    else if a.id ∈ seen then some (.badAttributeAt index (spec.name ++ " given more than once"))
    else if a.value.kind ≠ spec.kind then some (.badValueAt index (spec.name ++ " expects " ++ spec.kind.label))
    else none

/-- the first violation in the rest of a create request, from a position on -/
def firstCreateViolation? (table : List AttributeSpec) :
    (seen : List UInt32) → (index : Nat) → List Attribute → Option Fault
  | _, _, [] => none
  | seen, index, a :: rest =>
    match createViolation? table seen index a with
    | some fault => some fault
    | none => firstCreateViolation? table (seen ++ [a.id]) (index + 1) rest

/-- the first mandatory attribute of a table that a list of ids lacks -/
def firstMissing? (table : List AttributeSpec) (given : List UInt32) : Option AttributeSpec :=
  table.find? fun spec => spec.isMandatory && !given.contains spec.id

/-- checks the attributes of a create request -/
def checkCreate (kind : ObjectKind) (attrs : List Attribute) : Except Fault Unit := do
  let table ← requireTable kind
  match firstCreateViolation? table [] 0 attrs with
  | some fault => .error fault
  | none =>
    match firstMissing? table (attrs.map Attribute.id) with
    | some spec => .error (.mandatoryAttributeMissing spec.name)
    | none => .ok ()

/-- checks a set request and answers the attribute's table row -/
def checkSet (kind : ObjectKind) (a : Attribute) : Except Fault AttributeSpec := do
  let table ← requireTable kind
  match specIn? table a.id with
  | none => .error (.unknownAt 0)
  | some spec =>
    if !spec.isSettable then
      let reason := if spec.isReadOnly then "is read-only" else "can only be given on create"
      .error (.badAttributeAt 0 (spec.name ++ " " ++ reason))
    else if a.value.kind ≠ spec.kind then
      .error (.badValueAt 0 (spec.name ++ " expects " ++ spec.kind.label))
    else .ok spec

/-- checks the ids of a get request -/
def checkGet (kind : ObjectKind) (attrs : List Attribute) : Except Fault Unit := do
  let table ← requireTable kind
  match attrs.zipIdx.find? (fun p => (specIn? table p.1.id).isNone) with
  | some (_, index) => .error (.unknownAt index)
  | none => .ok ()

end SharedBuffer
