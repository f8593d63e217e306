import BeaconApi.Node.Endpoint.Basic

universe u

namespace BeaconApi.Endpoint

variable {m : Type → Type u} [Monad m]

/-- Break off if the node is syncing. -/
def ensureSynced (node : Backend m) : ExceptT PreparedResponse m Unit := do
  let status ← node.ask .syncStatus
  if status.isSyncing then throw (.syncing "beacon node is syncing")

/-- A block for a validator to sign. -/
def produceBlock : Endpoint m := fun node r => do
  let slot : Slot ← pathParam r "slot"
  let randaoReveal? : Option BlsSignature ← queryParam r "randao_reveal"
  match randaoReveal? with
  | none => throw (.badInput "missing randao_reveal query param")
  | some randaoReveal =>
    let graffiti : Option Root ← queryParam r "graffiti"
    ensureSynced node
    match ← node.ask (.produceBlock slot randaoReveal (graffiti.getD .zero)) with
    | .ok block => return .okData block
    | .error e => throw e.toResponse

/-- The duties of the proposers of an epoch, beside the block root that they depend on. -/
def proposerDuties : Endpoint m := fun node r => do
  let epoch : Epoch ← pathParam r "epoch"
  ensureSynced node
  match ← node.ask (.proposerDuties epoch) with
  | .ok duties => return .ok duties
  | .error e => throw e.toResponse

end BeaconApi.Endpoint
