/-
Buffer plans: pools, profiles and bindings to be made in one go, each under a name.

A plan has five tables, each in order of its names. It is read from TOML; unknown tables and fields are passed over.
-/
import SharedBuffer.Buffer.Mode
import SharedBuffer.Fault
import SharedBuffer.Toml.Decode
import SharedBuffer.Toml.Reader

namespace SharedBuffer

/-- a pool to create; its mode is dynamic unless given -/
structure PoolPlan where
  direction : Direction
  mode : Option ThresholdMode := none
  size : UInt64
deriving DecidableEq

/-- a profile to create, in a pool of the plan -/
structure ProfilePlan where
  pool : String
  size : UInt64
  mode : Option ProfileMode := none
  dynamicThreshold : Option Int8 := none
  staticThreshold : Option UInt64 := none
  xoff : Option UInt64 := none
  xon : Option UInt64 := none
deriving DecidableEq

/-- a plan; bindings give the name of a profile of the plan -/
structure Plan where
  pools : List (String × PoolPlan) := []
  profiles : List (String × ProfilePlan) := []
  /-- by port and index or range of indexes -/
  priorityGroups : List (String × String) := []
  /-- by port and index or range of indexes -/
  queues : List (String × String) := []
  /-- by port -/
  ports : List (String × String) := []
deriving DecidableEq

/-- why a plan did not take effect -/
inductive PlanError where
  | unreadable (path : String)
  | malformed (path : String)
  /-- a step refers to something that is not there -/
  | reference (step reason : String)
  /-- a step was refused -/
  | rejected (step : String) (fault : Fault)
deriving DecidableEq

namespace PlanError

/-- the text of a plan error -/
def message : PlanError → String
  | unreadable path => "Failed to read plan " ++ path
  | malformed path => "Failed to parse plan " ++ path
  | reference step reason => step ++ ": " ++ reason
  | rejected step fault => step ++ " rejected: " ++ fault.message

/-- the status of a refused step -/
def status? : PlanError → Option Status
  | rejected _ fault => some fault.status
  | _ => none

end PlanError

/-! ## Reading -/

namespace PoolPlan

/-- the pool that a value describes -/
def ofToml? (v : Toml.Value) : Option PoolPlan := do
  let fields ← v.fields? ["type", "mode", "size"]
  return {
    direction := ← Toml.requiredField? fields "type" fun v => v.name?.bind Direction.ofName?
    mode := ← Toml.optionalField? fields "mode" fun v => v.name?.bind ThresholdMode.ofName?
    size := ← Toml.requiredField? fields "size" Toml.Value.u64? }

end PoolPlan

namespace ProfilePlan

/-- the names of the fields, in order -/
def fieldNames : List String := ["pool", "size", "mode", "dynamic_th", "static_th", "xoff", "xon"]

/-- the profile that a value describes -/
def ofToml? (v : Toml.Value) : Option ProfilePlan := do
  let fields ← v.fields? fieldNames
  return {
    pool := ← Toml.requiredField? fields "pool" Toml.Value.text?
    size := ← Toml.requiredField? fields "size" Toml.Value.u64?
    mode := ← Toml.optionalField? fields "mode" fun v => v.name?.bind ProfileMode.ofName?
    dynamicThreshold := ← Toml.optionalField? fields "dynamic_th" Toml.Value.i8?
    staticThreshold := ← Toml.optionalField? fields "static_th" Toml.Value.u64?
    xoff := ← Toml.optionalField? fields "xoff" Toml.Value.u64?
    xon := ← Toml.optionalField? fields "xon" Toml.Value.u64? }

end ProfilePlan

namespace Plan

/-- the profile's name that a value binds to -/
def binding? (v : Toml.Value) : Option String := do
  Toml.requiredField? (← v.fields? ["profile"]) "profile" Toml.Value.text?

/-- the names of the tables, in order -/
def tableNames : List String :=
  ["BUFFER_POOL", "BUFFER_PROFILE", "BUFFER_PG", "BUFFER_QUEUE", "BUFFER_PORT_INGRESS_PROFILE"]

/-- the plan that a value describes -/
def ofToml? (v : Toml.Value) : Option Plan := do
  let fields ← v.fields? tableNames
  return {
    pools := ← Toml.fieldOr? fields "BUFFER_POOL" (Toml.Value.byName? PoolPlan.ofToml?) []
    profiles := ← Toml.fieldOr? fields "BUFFER_PROFILE" (Toml.Value.byName? ProfilePlan.ofToml?) []
    priorityGroups := ← Toml.fieldOr? fields "BUFFER_PG" (Toml.Value.byName? binding?) []
    queues := ← Toml.fieldOr? fields "BUFFER_QUEUE" (Toml.Value.byName? binding?) []
    ports := ← Toml.fieldOr? fields "BUFFER_PORT_INGRESS_PROFILE" (Toml.Value.byName? binding?) [] }

/-- reads a plan from a document that came from some place -/
def parse (text path : String) : Except PlanError Plan :=
  match (Toml.parse? text).bind ofToml? with
  | some plan => .ok plan
  | none => .error (.malformed path)

/-- reads a plan from a file with some text, or from one that cannot be read -/
def load (path : String) (content : Option String) : Except PlanError Plan :=
  match content with
  | some text => parse text path
  | none => .error (.unreadable path)

end Plan

end SharedBuffer
