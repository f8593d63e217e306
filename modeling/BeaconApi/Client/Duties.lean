import BeaconApi.Beacon.Block
import BeaconApi.Beacon.Status
import BeaconApi.Client.Basic

namespace BeaconApi.Client

variable {m : Type → Type} [Monad m] (client : Client m)

/-- A block to sign. -/
def produceBlock (slot : Slot) (randaoReveal : BlsSignature) (graffiti : Option Root) :
    m (Except ApiError Phase0.BeaconBlock) :=
  let query : Query := (SortedMap.empty.insert "randao_reveal" (.text randaoReveal.display))
    |>.insertSome "graffiti" (graffiti.map fun g => .text g.display)
  client.fetchData { Request.get ("/eth/v1/validator/blocks/" ++ slot.display) with query }

/-- The duties of the proposers of an epoch. -/
def proposerDuties (epoch : Epoch) : m (Except ApiError DependentProposerDuty) :=
  client.fetch (.get ("/eth/v1/validator/duties/proposer/" ++ epoch.display))

end BeaconApi.Client
