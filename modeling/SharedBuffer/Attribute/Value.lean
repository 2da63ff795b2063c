/-
Attribute values: eight kinds of value, two of them counted lists.

A request for a list states in `count` how many elements it has room for; an answer states there how many there are.
-/
import SharedBuffer.Object.Key

namespace SharedBuffer

/-- a list with the count it travels with, which need not be its length -/
structure CountedList where
  count : UInt32 := 0
  items : List UInt64 := []
deriving DecidableEq

namespace CountedList

/-- a list with its own length as the count -/
def ofItems (items : List UInt64) : CountedList := ⟨UInt32.ofNat items.length, items⟩

/-- an empty list with room for some number of elements -/
def withRoom (capacity : UInt32) : CountedList := ⟨capacity, []⟩

/-- a list as messages have it -/
def text (l : CountedList) : String :=
  "SaiList \x7b count: " ++ toString l.count.toNat ++ ", list: [" ++
    ", ".intercalate (l.items.map fun n => toString n.toNat) ++ "] \x7d"

end CountedList

/-- the kind of an attribute value -/
inductive ValueKind where
  | bool
  | u32
  | u64
  | i8
  | s32
  | oid
  | objectList
  | u64List
deriving DecidableEq

namespace ValueKind

/-- every kind of value -/
def all : List ValueKind := [bool, u32, u64, i8, s32, oid, objectList, u64List]

/-- the name of a kind of value -/
def label : ValueKind → String
  | bool => "Bool"
  | u32 => "U32"
  | u64 => "U64"
  | i8 => "I8"
  | s32 => "S32"
  | oid => "Oid"
  | objectList => "ObjectList"
  | u64List => "U64List"

end ValueKind

/-- the value of an attribute -/
inductive AttributeValue where
  | bool (b : Bool)
  | u32 (n : UInt32)
  | u64 (n : UInt64)
  | i8 (n : Int8)
  | s32 (n : Int32)
  | oid (id : ObjectId)
  | objectList (ids : CountedList)
  | u64List (ns : CountedList)
deriving DecidableEq

namespace AttributeValue

/-- the kind of a value -/
def kind : AttributeValue → ValueKind
  | bool _ => .bool
  | u32 _ => .u32
  | u64 _ => .u64
  | i8 _ => .i8
  | s32 _ => .s32
  | oid _ => .oid
  | objectList _ => .objectList
  | u64List _ => .u64List

/-- what a value holds, as messages have it -/
def content : AttributeValue → String
  | bool b => toString b
  | u32 n => toString n.toNat
  | u64 n => toString n.toNat
  | i8 n => toString n.toInt
  | s32 n => toString n.toInt
  | oid id => toString id.toNat
  | objectList ids => ids.text
  | u64List ns => ns.text

/-- a value as messages have it: its kind, and what it holds -/
def text (v : AttributeValue) : String := v.kind.label ++ "(" ++ v.content ++ ")"

/-- the number of a 32-bit value -/
def asU32? : AttributeValue → Option UInt32
  | u32 n => some n
  | _ => none

/-- the number of a 64-bit value -/
def asU64? : AttributeValue → Option UInt64
  | u64 n => some n
  | _ => none

/-- the number of a signed 8-bit value -/
def asI8? : AttributeValue → Option Int8
  | i8 n => some n
  | _ => none

/-- the number of a signed 32-bit value -/
def asS32? : AttributeValue → Option Int32
  | s32 n => some n
  | _ => none

/-- the id of an object value -/
def asOid? : AttributeValue → Option ObjectId
  | oid id => some id
  | _ => none

/-- the placeholder of a kind, as a request to read an attribute carries it -/
def empty : ValueKind → AttributeValue
  | .bool => bool false
  | .u32 => u32 0
  | .u64 => u64 0
  | .i8 => i8 0
  | .s32 => s32 0
  | .oid => oid nullId
  | .objectList => objectList {}
  | .u64List => u64List {}

end AttributeValue

/-- an attribute of a request: an id, known or not, and a value -/
structure Attribute where
  id : UInt32
  value : AttributeValue
deriving DecidableEq

/-- the first attribute with an id, with its position -/
def findAttribute? (attrs : List Attribute) (id : UInt32) : Option (Nat × Attribute) :=
  (attrs.zipIdx.find? (fun p => p.1.id == id)).map fun p => (p.2, p.1)

end SharedBuffer
