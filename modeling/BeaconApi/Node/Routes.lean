import BeaconApi.Node.Endpoint.Chain
import BeaconApi.Node.Endpoint.Pool
import BeaconApi.Node.Endpoint.Status
import BeaconApi.Node.Endpoint.Duties

universe u

namespace BeaconApi.Node

variable {m : Type → Type u} [Monad m]

/-- The route of an endpoint over a backend. -/
def route (node : Backend m) (method : Method) (pattern : String) (endpoint : Endpoint m) :
    Route m where
  method
  pattern
  handler r := some <$> (endpoint node r).response

/-- All routes of a node with the given version. -/
def routes (node : Backend m) (version : String) : List (Route m) :=
  [route node .get "/eth/v1/beacon/genesis" Endpoint.genesis,
    route node .get "/eth/v1/beacon/blocks/:block_id/root" Endpoint.blockRoot,
    route node .get "/eth/v1/beacon/blocks/:block_id" Endpoint.block,
    route node .get "/eth/v2/beacon/blocks/:block_id" Endpoint.blockWithVersion,
    route node .get "/eth/v1/beacon/blocks/:block_id/attestations" Endpoint.blockAttestations,
    route node .post "/eth/v1/beacon/blocks" Endpoint.publishBlock,
    route node .get "/eth/v1/beacon/headers" Endpoint.blockHeaders,
    route node .get "/eth/v1/beacon/headers/:block_id" Endpoint.blockHeader,
    route node .get "/eth/v1/beacon/states/:state_id/root" Endpoint.stateRoot,
    route node .get "/eth/v1/beacon/states/:state_id/finality_checkpoints"
      Endpoint.finalityCheckpoints,
    route node .get "/eth/v1/beacon/pool/attestations" Endpoint.poolAttestations,
    route node .post "/eth/v1/beacon/pool/attestations" Endpoint.publishAttestations,
    route node .get "/eth/v1/beacon/pool/voluntary_exits" Endpoint.poolVoluntaryExits,
    route node .post "/eth/v1/beacon/pool/voluntary_exits" Endpoint.publishVoluntaryExit,
    route node .post "/eth/v1/beacon/pool/sync_committees" Endpoint.publishSyncCommitteeMessages,
    route node .get "/eth/v1/node/health" Endpoint.health,
    route node .get "/eth/v1/node/version" (Endpoint.version version),
    route node .get "/eth/v1/node/syncing" Endpoint.syncing,
    route node .get "/eth/v1/validator/blocks/:slot" Endpoint.produceBlock,
    route node .get "/eth/v1/validator/duties/proposer/:epoch" Endpoint.proposerDuties]

/-- Answer a request to a node. -/
def answer (node : Backend m) (version : String) (request : Http.Request) : m Http.Response :=
  Prod.fst <$> Router.answer (routes node version) request

end BeaconApi.Node
