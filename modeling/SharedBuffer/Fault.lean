/-
Why a request was refused.

A fault names its cause and what it concerns; its status is what the caller gets as a code, its message is the text.
Positions are those of the attribute in the request.
-/
import SharedBuffer.Status

namespace SharedBuffer

/-- the cause of a refusal -/
inductive Fault where
  | mandatoryAttributeMissing (name : String)
  | invalidAttribute (index : UInt32) (reason : String)
  | invalidAttributeValue (index : UInt32) (reason : String)
  | unknownAttribute (index : UInt32)
  | objectInUse (object : String)
  | notFound (item : String)
  | alreadyExists (item : String)
  | insufficientResources (reason : String)
  | invalidParameter (reason : String)
  | notSupported (feature : String)
  | bufferOverflow (index required : UInt32)
deriving DecidableEq

namespace Fault

/-- the status a fault is reported as -/
def status : Fault → Status
  | mandatoryAttributeMissing _ => .mandatoryAttributeMissing
  | invalidAttribute i _ => .invalidAttribute i
  | invalidAttributeValue i _ => .invalidAttributeValue i
  | unknownAttribute i => .unknownAttribute i
  | objectInUse _ => .objectInUse
  | notFound _ => .itemNotFound
  | alreadyExists _ => .itemAlreadyExists
  | insufficientResources _ => .insufficientResources
  | invalidParameter _ => .invalidParameter
  | notSupported _ => .notSupported
  | bufferOverflow _ _ => .bufferOverflow

/-- the text of a fault -/
def message : Fault → String
  | mandatoryAttributeMissing name => "Mandatory attribute missing: " ++ name
  | invalidAttribute i reason => "Invalid attribute at index " ++ toString i.toNat ++ ": " ++ reason
  | invalidAttributeValue i reason => "Invalid attribute value at index " ++ toString i.toNat ++ ": " ++ reason
  | unknownAttribute i => "Unknown attribute at index " ++ toString i.toNat
  | objectInUse object => "Object in use: " ++ object
  | notFound item => "Item not found: " ++ item
  | alreadyExists item => "Item already exists: " ++ item
  | insufficientResources reason => "Insufficient resources: " ++ reason
  | invalidParameter reason => "Invalid parameter: " ++ reason
  | notSupported feature => "Operation not supported: " ++ feature
  | bufferOverflow i required =>
    "Buffer overflow at index " ++ toString i.toNat ++ ": " ++ toString required.toNat ++ " elements required"

/-- the name of the cause -/
def label : Fault → String
  | mandatoryAttributeMissing _ => "MandatoryAttributeMissing"
  | invalidAttribute _ _ => "InvalidAttribute"
  | invalidAttributeValue _ _ => "InvalidAttributeValue"
  | unknownAttribute _ => "UnknownAttribute"
  | objectInUse _ => "ObjectInUse"
  | notFound _ => "NotFound"
  | alreadyExists _ => "AlreadyExists"
  | insufficientResources _ => "InsufficientResources"
  | invalidParameter _ => "InvalidParameter"
  | notSupported _ => "NotSupported"
  | bufferOverflow _ _ => "BufferOverflow"

/-- whether asking again can help: only a list that did not fit, with the size the fault states -/
def isRetryable : Fault → Bool
  | bufferOverflow _ _ => true
  | _ => false

/-! ## Faults at a position of the request, which is kept to 32 bits -/

/-- the attribute at a position is not valid there -/
def badAttributeAt (index : Nat) (reason : String) : Fault := .invalidAttribute (UInt32.ofNat index) reason

/-- the attribute at a position has a value that is not acceptable -/
def badValueAt (index : Nat) (reason : String) : Fault := .invalidAttributeValue (UInt32.ofNat index) reason

/-- the attribute at a position has an unknown id -/
def unknownAt (index : Nat) : Fault := .unknownAttribute (UInt32.ofNat index)

end Fault

end SharedBuffer
