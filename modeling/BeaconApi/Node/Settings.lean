import BeaconApi.Beacon.Quantity
import BeaconApi.Net.SocketAddress

namespace BeaconApi.Node

/-- A variable whose value cannot be read. -/
structure SettingError where
  variableName : String
  expected : String
  value : String
deriving DecidableEq, Repr

/-- The wording of a setting error. -/
def SettingError.message (e : SettingError) : String :=
  e.variableName ++ " must be " ++ e.expected ++ ", got " ++ Text.quote e.value

/-- How a node is set up. -/
structure Settings where
  bindAddress : Net.SocketAddress
  genesisTime : Timestamp
  /-- Whether the node is syncing when it starts. -/
  syncing : Bool
  nodeVersion : String

namespace Settings

/-- The settings of a node for which no variable is set. -/
def default : Settings where
  bindAddress := .v4 #v[127, 0, 0, 1] 5052
  genesisTime := ⟨1606824023⟩
  syncing := false
  nodeVersion := "eth2api/0.1.0"

/-- Read a switch. -/
def readFlag? (s : String) : Option Bool :=
  if s = "1" ∨ s = "true" then some true
  else if s = "0" ∨ s = "false" then some false
  else none

/-- The setting that a variable gives, or else its default. -/
def read {α : Type} (lookup : String → Option String) (variableName expected : String)
    (ofText? : String → Option α) (default : α) : Except SettingError α :=
  match lookup variableName with
  | none => .ok default
  | some value =>
    match ofText? value with
    | some x => .ok x
    | none => .error ⟨variableName, expected, value⟩

/-- Read the settings of a node from variables. -/
def ofLookup (lookup : String → Option String) : Except SettingError Settings := do
  let bindAddress ← read lookup "ETH2API_BIND" "a socket address (e.g. 127.0.0.1:5052)"
    Net.SocketAddress.ofString? default.bindAddress
  let genesisTime ← read lookup "ETH2API_GENESIS_TIME" "unix seconds"
    (fun value => (Quantity.ofString value).toOption) default.genesisTime
  let syncing ← read lookup "ETH2API_SYNCING" "true or false" readFlag? default.syncing
  let nodeVersion ← read lookup "ETH2API_NODE_VERSION" "a text" some default.nodeVersion
  return { bindAddress, genesisTime, syncing, nodeVersion }

end Settings

end BeaconApi.Node
