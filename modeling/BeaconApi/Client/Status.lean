import BeaconApi.Beacon.Status
import BeaconApi.Client.Basic

namespace BeaconApi

/-- How a node is. -/
inductive Health
  | ready
  | syncing
deriving DecidableEq, Repr

/-- The name of a state of health. -/
def Health.name : Health → String
  | .ready => "Ready"
  | .syncing => "Syncing"

namespace Client

variable {m : Type → Type} [Monad m] (client : Client m)

/-- How the node is. -/
def health : m (Except ApiError Health) := do
  let result ← client.send (.get "/eth/v1/node/health")
  return result.map fun code => if code = 206 then .syncing else .ready

/-- The version of the node. -/
def version : m (Except ApiError String) := do
  return (← client.fetchData (.get "/eth/v1/node/version")).map NodeVersionResponse.version

/-- How far the node is behind the chain. -/
def syncing : m (Except ApiError SyncingStatus) :=
  client.fetchData (.get "/eth/v1/node/syncing")

end Client

end BeaconApi
