/-
How the reservations of the tiles add up to what a pool has given away.

On tiled hardware each tile carves its own reservations out of a pool. Either every tile takes as much as the one that
needs most, a number of times over (`broadcastMax`), or each tile takes what it needs itself (`perTileSum`).
-/
import SharedBuffer.Amount

namespace SharedBuffer

/-- the rule's name in a hardware profile -/
inductive ReductionKind where
  | broadcastMax
  | perTileSum
deriving DecidableEq

namespace ReductionKind

/-- both rules -/
def all : List ReductionKind := [broadcastMax, perTileSum]

/-- the text of a rule's name -/
def name : ReductionKind → String
  | broadcastMax => "broadcast_max"
  | perTileSum => "per_tile_sum"

/-- the rule with a name -/
def ofName? (s : String) : Option ReductionKind := all.find? (fun k => k.name == s)

end ReductionKind

/-- a rule that turns tile reservations into figures of the pool -/
inductive Reduction where
  /-- each reservation is held this many times over -/
  | broadcastMax (replication : UInt64)
  | perTileSum
deriving DecidableEq

/-- the largest of some amounts; zero if there are none -/
def largest (amounts : List UInt64) : UInt64 := amounts.foldl max 0

/-- the sum of some amounts, if it fits -/
def checkedSum (amounts : List UInt64) : Option UInt64 := amounts.foldlM checkedAdd 0

namespace Reduction

/-- the kind of a rule -/
def kind : Reduction → ReductionKind
  | broadcastMax _ => .broadcastMax
  | perTileSum => .perTileSum

/-- the name of a rule -/
def name (r : Reduction) : String := r.kind.name

/-- what the tiles of a pool reserve together, up to the largest amount -/
def total : Reduction → List UInt64 → UInt64
  | broadcastMax _, reserved => saturatingMul (largest reserved) (UInt64.ofNat reserved.length)
  | perTileSum, reserved => reserved.foldl saturatingAdd 0

/-- what the reservations leave of a pool, if they fit into it -/
def sharedSize? : Reduction → (size : UInt64) → (reserved : List UInt64) → Option UInt64
  | broadcastMax replication, size, reserved => do
    let tiles ← checkedMul (largest reserved) (UInt64.ofNat reserved.length)
    checkedSub size (← checkedMul tiles replication)
  | perTileSum, size, reserved => do
    checkedSub size (← checkedSum reserved)

end Reduction

end SharedBuffer
