import BeaconApi.Node.Routes
import BeaconApi.Proofs.Server.Routing

universe u

namespace BeaconApi.Node

/-- The methods and paths of all routes. -/
def places : List (Method × Pattern) :=
  [(.get, .ofString "/eth/v1/beacon/genesis"),
    (.get, .ofString "/eth/v1/beacon/blocks/:block_id/root"),
    (.get, .ofString "/eth/v1/beacon/blocks/:block_id"),
    (.get, .ofString "/eth/v2/beacon/blocks/:block_id"),
    (.get, .ofString "/eth/v1/beacon/blocks/:block_id/attestations"),
    (.post, .ofString "/eth/v1/beacon/blocks"),
    (.get, .ofString "/eth/v1/beacon/headers"),
    (.get, .ofString "/eth/v1/beacon/headers/:block_id"),
    (.get, .ofString "/eth/v1/beacon/states/:state_id/root"),
    (.get, .ofString "/eth/v1/beacon/states/:state_id/finality_checkpoints"),
    (.get, .ofString "/eth/v1/beacon/pool/attestations"),
    (.post, .ofString "/eth/v1/beacon/pool/attestations"),
    (.get, .ofString "/eth/v1/beacon/pool/voluntary_exits"),
    (.post, .ofString "/eth/v1/beacon/pool/voluntary_exits"),
    (.post, .ofString "/eth/v1/beacon/pool/sync_committees"),
    (.get, .ofString "/eth/v1/node/health"),
    (.get, .ofString "/eth/v1/node/version"),
    (.get, .ofString "/eth/v1/node/syncing"),
    (.get, .ofString "/eth/v1/validator/blocks/:slot"),
    (.get, .ofString "/eth/v1/validator/duties/proposer/:epoch")]

theorem places_separate : places.Pairwise Router.Separate := by
  decide +kernel

variable {m : Type → Type u} [Monad m] (node : Backend m) (version : String)

theorem map_routes : (routes node version).map Route.place = places :=
  rfl

theorem routes_separate : ((routes node version).map Route.place).Pairwise Router.Separate :=
  map_routes node version ▸ places_separate

end BeaconApi.Node
