/-
The memory layout of a switch: how much there is, how it is tiled, and which tile each port is wired to.
-/
import SharedBuffer.Hardware.Reduction

namespace SharedBuffer

/-- the buffer hardware of a switch -/
structure Hardware where
  totalBytes : UInt64 := 32 * 1024 * 1024
  maxPoolsPerDirection : UInt32 := 4
  tileCount : UInt32 := 1
  portCount : UInt32 := 32
  groupsPerPort : UInt32 := 8
  queuesPerPort : UInt32 := 8
  /-- how many ports in a row share a tile, for ports without an entry in `portTiles` -/
  portsPerTile : Option UInt32 := none
  /-- the tile of each port, by port number -/
  portTiles : List UInt32 := []
  reduction : ReductionKind := .broadcastMax
  replication : UInt64 := 1
deriving DecidableEq

namespace Hardware

/-- whether the memory is split into tiles -/
def isTiled (hw : Hardware) : Bool := 1 < hw.tileCount

/-- how many entries a pool's list of tile reservations has: none where there are no tiles -/
def tileSlots (hw : Hardware) : Nat := if hw.isTiled then hw.tileCount.toNat else 0

/-- the number of the last tile; zero also where there is none -/
def lastTile (hw : Hardware) : UInt32 := if hw.tileCount = 0 then 0 else hw.tileCount - 1

/-- the tile a port is wired to, never one beyond the last -/
def tileOf (hw : Hardware) (port : UInt32) : UInt32 :=
  match hw.portTiles[port.toNat]? with
  | some tile => min tile hw.lastTile
  | none =>
    match hw.portsPerTile with
    | some perTile => if 0 < perTile then min (port / perTile) hw.lastTile else 0
    | none => 0

/-- the rule that folds tile reservations -/
def policy (hw : Hardware) : Reduction :=
  match hw.reduction with
  | .broadcastMax => .broadcastMax hw.replication
  | .perTileSum => .perTileSum

end Hardware

end SharedBuffer
