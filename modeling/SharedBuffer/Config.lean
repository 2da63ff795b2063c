/-
Configurations: the hardware of the switch and how to log.

A configuration is read from TOML, where everything may be missing, and checked before it is used; the first thing
that is wrong with it is reported.
-/
import SharedBuffer.Hardware.Profile
import SharedBuffer.Toml.Decode
import SharedBuffer.Toml.Reader

namespace SharedBuffer

/-- how to log -/
structure Logging where
  level : String := "info"
  /-- log lines as JSON instead of plain text -/
  json : Bool := false
deriving DecidableEq

/-- a configuration -/
structure Config where
  hardware : Hardware := {}
  logging : Logging := {}
deriving DecidableEq

/-- what is wrong with a configuration -/
inductive ConfigFault where
  | noMemory
  | noPools
  | noTiles
  | noReplication
  | noPortsPerTile
  | tileBeyond (tile tileCount : UInt32)
  | portsWithoutTiles
deriving DecidableEq

namespace ConfigFault

/-- the text of what is wrong -/
def message : ConfigFault → String
  | noMemory => "total_buffer_bytes must be > 0"
  | noPools => "max_pools_per_direction must be > 0"
  | noTiles => "tile_count must be > 0"
  | noReplication => "replication must be > 0"
  | noPortsPerTile => "ports_per_tile must be > 0"
  | tileBeyond tile tileCount =>
    "port_tiles entry " ++ toString tile.toNat ++ " exceeds tile_count " ++ toString tileCount.toNat
  | portsWithoutTiles => "tiled hardware needs ports_per_tile or port_tiles"

end ConfigFault

/-- why a configuration cannot be used -/
inductive ConfigError where
  | unreadable (path : String)
  | malformed (path : String)
  | invalid (fault : ConfigFault)
deriving DecidableEq

namespace ConfigError

/-- the text of a configuration error -/
def message : ConfigError → String
  | unreadable path => "Failed to read config file " ++ path
  | malformed path => "Failed to parse config file " ++ path
  | invalid fault => "Invalid configuration: " ++ fault.message

end ConfigError

/-! ## Reading -/

namespace Hardware

/-- the names of the fields, in order -/
def fieldNames : List String :=
  ["total_buffer_bytes", "max_pools_per_direction", "tile_count", "port_count", "pgs_per_port", "queues_per_port",
    "ports_per_tile", "port_tiles", "reduction", "replication"]

/-- the hardware that a value describes -/
def ofToml? (v : Toml.Value) : Option Hardware := do
  let fields ← v.fields? fieldNames
  let standard : Hardware := {}
  return {
    totalBytes := ← Toml.fieldOr? fields "total_buffer_bytes" Toml.Value.u64? standard.totalBytes
    maxPoolsPerDirection :=
      ← Toml.fieldOr? fields "max_pools_per_direction" Toml.Value.u32? standard.maxPoolsPerDirection
    tileCount := ← Toml.fieldOr? fields "tile_count" Toml.Value.u32? standard.tileCount
    portCount := ← Toml.fieldOr? fields "port_count" Toml.Value.u32? standard.portCount
    groupsPerPort := ← Toml.fieldOr? fields "pgs_per_port" Toml.Value.u32? standard.groupsPerPort
    queuesPerPort := ← Toml.fieldOr? fields "queues_per_port" Toml.Value.u32? standard.queuesPerPort
    portsPerTile := ← Toml.optionalField? fields "ports_per_tile" Toml.Value.u32?
    portTiles := ← Toml.fieldOr? fields "port_tiles" (Toml.Value.list? Toml.Value.u32?) []
    reduction := ← Toml.fieldOr? fields "reduction" (fun v => v.name?.bind ReductionKind.ofName?) standard.reduction
    replication := ← Toml.fieldOr? fields "replication" Toml.Value.u64? standard.replication }

end Hardware

namespace Logging

/-- the logging that a value describes -/
def ofToml? (v : Toml.Value) : Option Logging := do
  let fields ← v.fields? ["level", "json"]
  let standard : Logging := {}
  return {
    level := ← Toml.fieldOr? fields "level" Toml.Value.text? standard.level
    json := ← Toml.fieldOr? fields "json" Toml.Value.bool? standard.json }

end Logging

namespace Config

/-- the configuration that a value describes -/
def ofToml? (v : Toml.Value) : Option Config := do
  let fields ← v.fields? ["hardware", "logging"]
  return {
    hardware := ← Toml.fieldOr? fields "hardware" Hardware.ofToml? {}
    logging := ← Toml.fieldOr? fields "logging" Logging.ofToml? {} }

/-- reads a configuration from a document that came from some place -/
def parse (text path : String) : Except ConfigError Config :=
  match (Toml.parse? text).bind ofToml? with
  | some config => .ok config
  | none => .error (.malformed path)

/-! ## Checking -/

/-- the first thing that is wrong with the hardware, if anything is -/
def hardwareFault? (hw : Hardware) : Option ConfigFault :=
  if hw.totalBytes = 0 then some .noMemory
  else if hw.maxPoolsPerDirection = 0 then some .noPools
  else if hw.tileCount = 0 then some .noTiles
  else if hw.replication = 0 then some .noReplication
  else if hw.portsPerTile = some 0 then some .noPortsPerTile
  else
    match hw.portTiles.find? fun tile => hw.tileCount ≤ tile with
    | some tile => some (.tileBeyond tile hw.tileCount)
    | none =>
      if hw.isTiled && hw.portsPerTile.isNone && hw.portTiles.isEmpty then some .portsWithoutTiles else none

/-- checks a configuration -/
def validate (c : Config) : Except ConfigError Unit :=
  match hardwareFault? c.hardware with
  | some fault => .error (.invalid fault)
  | none => .ok ()

/-- reads and checks a configuration from a file with some text, or from one that cannot be read -/
def load (path : String) (content : Option String) : Except ConfigError Config :=
  match content with
  | none => .error (.unreadable path)
  | some text => do
    let config ← parse text path
    config.validate
    return config

end Config

end SharedBuffer
