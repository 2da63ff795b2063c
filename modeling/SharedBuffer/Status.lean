/-
Status codes of the switch interface.

Most codes are small negative numbers. Three ranges carry the position of the attribute that is at fault: the upper
half of the 32-bit code names the range, the lower half is the position.
-/

namespace SharedBuffer

/-- how a request to the switch interface ended -/
inductive Status where
  | success
  | failure
  | notSupported
  | noMemory
  | insufficientResources
  | invalidParameter
  | itemAlreadyExists
  | itemNotFound
  | bufferOverflow
  | uninitialized
  | tableFull
  | mandatoryAttributeMissing
  | notImplemented
  | objectInUse
  | invalidObjectType
  | invalidObjectId
  | invalidAttribute (index : UInt32)
  | invalidAttributeValue (index : UInt32)
  | unknownAttribute (index : UInt32)
deriving DecidableEq

namespace Status

/-- the statuses that carry no position -/
def plain : List Status :=
  [success, failure, notSupported, noMemory, insufficientResources, invalidParameter, itemAlreadyExists, itemNotFound,
    bufferOverflow, uninitialized, tableFull, mandatoryAttributeMissing, notImplemented, objectInUse,
    invalidObjectType, invalidObjectId]

/-- the first code of the range for attributes that are not valid -/
def invalidAttributeBase : UInt32 := 0xFFFE0000
/-- the first code of the range for attribute values that are not valid -/
def invalidAttributeValueBase : UInt32 := 0xFFFD0000
/-- the first code of the range for unknown attributes -/
def unknownAttributeBase : UInt32 := 0xFFFB0000

/-- the number of codes in a range -/
def rangeSize : UInt32 := 0x10000

/-- a range's code for a position; only the position's lower half has room -/
def codeInRange (base index : UInt32) : Int32 := (base + index % rangeSize).toInt32

/-- the signed 32-bit code of a status -/
def code : Status → Int32
  | success => 0
  | failure => -1
  | notSupported => -2
  | noMemory => -3
  | insufficientResources => -4
  | invalidParameter => -5
  | itemAlreadyExists => -6
  | itemNotFound => -7
  | bufferOverflow => -8
  | uninitialized => -12
  | tableFull => -13
  | mandatoryAttributeMissing => -14
  | notImplemented => -15
  | objectInUse => -17
  | invalidObjectType => -18
  | invalidObjectId => -19
  | invalidAttribute i => codeInRange invalidAttributeBase i
  | invalidAttributeValue i => codeInRange invalidAttributeValueBase i
  | unknownAttribute i => codeInRange unknownAttributeBase i

/-- the status of a code; a code that means nothing counts as a failure -/
def ofCode (c : Int32) : Status :=
  match plain.find? (fun s => s.code == c) with
  | some s => s
  | none =>
    let raw := c.toUInt32
    let index := raw % rangeSize
    if raw - index = invalidAttributeBase then invalidAttribute index
    else if raw - index = invalidAttributeValueBase then invalidAttributeValue index
    else if raw - index = unknownAttributeBase then unknownAttribute index
    else failure

/-- the position of the attribute at fault, where the status carries one -/
def attributeIndex? : Status → Option UInt32
  | invalidAttribute i | invalidAttributeValue i | unknownAttribute i => some i
  | _ => none

/-- whether the request succeeded -/
def isSuccess (s : Status) : Bool := s == success

/-- the name of a status, with its position in brackets -/
def label : Status → String
  | success => "Success"
  | failure => "Failure"
  | notSupported => "NotSupported"
  | noMemory => "NoMemory"
  | insufficientResources => "InsufficientResources"
  | invalidParameter => "InvalidParameter"
  | itemAlreadyExists => "ItemAlreadyExists"
  | itemNotFound => "ItemNotFound"
  | bufferOverflow => "BufferOverflow"
  | uninitialized => "Uninitialized"
  | tableFull => "TableFull"
  | mandatoryAttributeMissing => "MandatoryAttributeMissing"
  | notImplemented => "NotImplemented"
  | objectInUse => "ObjectInUse"
  | invalidObjectType => "InvalidObjectType"
  | invalidObjectId => "InvalidObjectId"
  | invalidAttribute i => "InvalidAttribute(" ++ toString i.toNat ++ ")"
  | invalidAttributeValue i => "InvalidAttributeValue(" ++ toString i.toNat ++ ")"
  | unknownAttribute i => "UnknownAttribute(" ++ toString i.toNat ++ ")"

/-- the name that the switch interface gives to a status -/
def name : Status → String
  | success => "SAI_STATUS_SUCCESS"
  | failure => "SAI_STATUS_FAILURE"
  | notSupported => "SAI_STATUS_NOT_SUPPORTED"
  | noMemory => "SAI_STATUS_NO_MEMORY"
  | insufficientResources => "SAI_STATUS_INSUFFICIENT_RESOURCES"
  | invalidParameter => "SAI_STATUS_INVALID_PARAMETER"
  | itemAlreadyExists => "SAI_STATUS_ITEM_ALREADY_EXISTS"
  | itemNotFound => "SAI_STATUS_ITEM_NOT_FOUND"
  | bufferOverflow => "SAI_STATUS_BUFFER_OVERFLOW"
  | uninitialized => "SAI_STATUS_UNINITIALIZED"
  | tableFull => "SAI_STATUS_TABLE_FULL"
  | mandatoryAttributeMissing => "SAI_STATUS_MANDATORY_ATTRIBUTE_MISSING"
  | notImplemented => "SAI_STATUS_NOT_IMPLEMENTED"
  | objectInUse => "SAI_STATUS_OBJECT_IN_USE"
  | invalidObjectType => "SAI_STATUS_INVALID_OBJECT_TYPE"
  | invalidObjectId => "SAI_STATUS_INVALID_OBJECT_ID"
  | invalidAttribute i => "SAI_STATUS_INVALID_ATTRIBUTE_" ++ toString i.toNat
  | invalidAttributeValue i => "SAI_STATUS_INVALID_ATTR_VALUE_" ++ toString i.toNat
  | unknownAttribute i => "SAI_STATUS_UNKNOWN_ATTRIBUTE_" ++ toString i.toNat

end Status

end SharedBuffer
