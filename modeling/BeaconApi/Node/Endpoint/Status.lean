import BeaconApi.Node.Endpoint.Basic

universe u

namespace BeaconApi.Endpoint

variable {m : Type → Type u} [Monad m]

/-- Whether the node is ready. The answer is in the status code alone. -/
def health : Endpoint m := fun node _ => do
  let status ← node.ask .syncStatus
  return .ofCode (if status.isSyncing then 206 else 200)

/-- The version of the node. -/
def version (text : String) : Endpoint m := fun _ _ =>
  return .okData (NodeVersionResponse.mk text)

/-- How far the node is behind the chain. -/
def syncing : Endpoint m := fun node _ => do
  return .okData (← node.ask .syncStatus)

end BeaconApi.Endpoint
