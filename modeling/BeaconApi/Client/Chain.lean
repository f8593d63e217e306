import BeaconApi.Beacon.Block
import BeaconApi.Beacon.Identifier
import BeaconApi.Client.Basic

namespace BeaconApi.Client

variable {m : Type → Type} [Monad m] (client : Client m)

/-- How the chain began. -/
def genesis : m (Except ApiError (Option GenesisResponse)) :=
  client.lookupData (.get "/eth/v1/beacon/genesis")

/-- The root of a block. -/
def blockRoot (id : BlockId) : m (Except ApiError (Option Root)) := do
  let result ← client.lookupData (.get ("/eth/v1/beacon/blocks/" ++ id.display ++ "/root"))
  return result.map (Option.map RootResponse.root)

/-- A block. -/
def block (id : BlockId) : m (Except ApiError (Option SignedBeaconBlock)) :=
  client.lookupData (.get ("/eth/v1/beacon/blocks/" ++ id.display))

/-- A block with the name of its fork. -/
def blockWithVersion (id : BlockId) : m (Except ApiError (Option VersionedSignedBeaconBlock)) :=
  client.lookup (.get ("/eth/v2/beacon/blocks/" ++ id.display))

/-- The attestations in a block. -/
def blockAttestations (id : BlockId) : m (Except ApiError (Option (List Attestation))) :=
  client.lookupData (.get ("/eth/v1/beacon/blocks/" ++ id.display ++ "/attestations"))

/-- Publish a block. The answer is whether the node found it valid. -/
def publishBlock (block : SignedBeaconBlock) : m (Except ApiError Bool) := do
  return (← client.send (.post "/eth/v1/beacon/blocks" block)).map (· ≠ 202)

/-- The header of a block. -/
def blockHeader (id : BlockId) : m (Except ApiError (Option BeaconBlockHeaderAndInfo)) :=
  client.lookupData (.get ("/eth/v1/beacon/headers/" ++ id.display))

/-- The headers of a slot and a parent. Without either, those at the slot of the head. -/
def blockHeaders (slot : Option Slot) (parentRoot : Option Root) :
    m (Except ApiError (List BeaconBlockHeaderAndInfo)) :=
  let query : Query := (SortedMap.empty.insertSome "slot" (slot.map fun s => .text s.display))
    |>.insertSome "parent_root" (parentRoot.map fun r => .text r.display)
  client.fetchData { Request.get "/eth/v1/beacon/headers" with query }

/-- The root of a state. -/
def stateRoot (id : StateId) : m (Except ApiError (Option Root)) := do
  let result ← client.lookupData (.get ("/eth/v1/beacon/states/" ++ id.display ++ "/root"))
  return result.map (Option.map RootResponse.root)

/-- The checkpoints of a state. -/
def finalityCheckpoints (id : StateId) : m (Except ApiError (Option FinalityCheckpoints)) :=
  client.lookupData (.get ("/eth/v1/beacon/states/" ++ id.display ++ "/finality_checkpoints"))

end BeaconApi.Client
