/-
Directions, threshold modes and thresholds.

A profile may leave its threshold mode to its pool; `ProfileMode.effective` resolves it where it is used, so the mode a
profile was given is never rewritten.
-/
import SharedBuffer.Object.Kind

namespace SharedBuffer

/-- which way the traffic of a pool goes -/
inductive Direction where
  | ingress
  | egress
deriving DecidableEq

namespace Direction

/-- both directions -/
def all : List Direction := [ingress, egress]

/-- the direction's code as an attribute value -/
def code : Direction → Int32
  | ingress => 0
  | egress => 1

/-- the direction with a code -/
def ofCode? (n : Int32) : Option Direction := all.find? (fun d => d.code == n)

/-- the direction's name in configurations and reports -/
def name : Direction → String
  | ingress => "ingress"
  | egress => "egress"

/-- the direction with a name -/
def ofName? (s : String) : Option Direction := all.find? (fun d => d.name == s)

/-- the direction's name in messages -/
def label : Direction → String
  | ingress => "Ingress"
  | egress => "Egress"

/-- whether consumers of a kind may draw from pools of a direction: ports and priority groups from ingress pools,
queues from egress pools -/
def accepts : Direction → ObjectKind → Bool
  | ingress, .port => true
  | ingress, .priorityGroup => true
  | egress, .queue => true
  | _, _ => false

end Direction

/-- how a limit on shared memory is stated -/
inductive ThresholdMode where
  | static
  | dynamic
deriving DecidableEq

namespace ThresholdMode

/-- both modes -/
def all : List ThresholdMode := [static, dynamic]

/-- the mode's code as an attribute value -/
def code : ThresholdMode → Int32
  | static => 0
  | dynamic => 1

/-- the mode with a code -/
def ofCode? (n : Int32) : Option ThresholdMode := all.find? (fun m => m.code == n)

/-- the mode's name in configurations and reports -/
def name : ThresholdMode → String
  | static => "static"
  | dynamic => "dynamic"

/-- the mode with a name -/
def ofName? (s : String) : Option ThresholdMode := all.find? (fun m => m.name == s)

/-- the mode's name in messages -/
def label : ThresholdMode → String
  | static => "Static"
  | dynamic => "Dynamic"

end ThresholdMode

/-- the threshold mode a profile states; an inherited one is that of its pool -/
inductive ProfileMode where
  | inherited
  | static
  | dynamic
deriving DecidableEq

namespace ProfileMode

/-- every mode -/
def all : List ProfileMode := [inherited, static, dynamic]

/-- the mode's code as an attribute value -/
def code : ProfileMode → Int32
  | static => 0
  | dynamic => 1
  | inherited => 2

/-- the mode with a code -/
def ofCode? (n : Int32) : Option ProfileMode := all.find? (fun m => m.code == n)

/-- the mode's name in configurations and reports -/
def name : ProfileMode → String
  | inherited => "inherited"
  | static => "static"
  | dynamic => "dynamic"

/-- the mode with a name -/
def ofName? (s : String) : Option ProfileMode := all.find? (fun m => m.name == s)

/-- whether the profile states a mode of its own -/
def isExplicit (m : ProfileMode) : Bool := m != inherited

/-- the mode that counts for a profile in a pool of some mode -/
def effective : ProfileMode → ThresholdMode → ThresholdMode
  | inherited, poolMode => poolMode
  | static, _ => .static
  | dynamic, _ => .dynamic

end ProfileMode

/-- the limit a profile puts on its use of shared memory: bytes, or an exponent of two applied to what is free -/
inductive Threshold where
  | static (limit : UInt64)
  | dynamic (alpha : Int8)
deriving DecidableEq

namespace Threshold

/-- the mode a threshold belongs to -/
def mode : Threshold → ThresholdMode
  | static _ => .static
  | dynamic _ => .dynamic

end Threshold

end SharedBuffer
