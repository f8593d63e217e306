import BeaconApi.Beacon.Pool
import BeaconApi.Client.Basic

namespace BeaconApi.Client

variable {m : Type → Type} [Monad m] (client : Client m)

/-- The attestations in the pool. -/
def poolAttestations (slot : Option Slot) (committeeIndex : Option CommitteeIndex) :
    m (Except ApiError (List Attestation)) :=
  let query : Query := (SortedMap.empty.insertSome "slot" (slot.map fun s => .text s.display))
    |>.insertSome "committee_index" (committeeIndex.map fun i => .text i.display)
  client.fetchData { Request.get "/eth/v1/beacon/pool/attestations" with query }

/-- Submit attestations. The error names those that were refused. -/
def submitAttestations (attestations : List Attestation) : m (Except ApiError Unit) := do
  return (← client.send (.post "/eth/v1/beacon/pool/attestations" attestations)).map fun _ => ()

/-- The voluntary exits in the pool. -/
def poolVoluntaryExits : m (Except ApiError (List SignedVoluntaryExit)) :=
  client.fetchData (.get "/eth/v1/beacon/pool/voluntary_exits")

/-- Submit a voluntary exit. -/
def submitVoluntaryExit (exit : SignedVoluntaryExit) : m (Except ApiError Unit) := do
  return (← client.send (.post "/eth/v1/beacon/pool/voluntary_exits" exit)).map fun _ => ()

/-- Submit sync committee messages. The error names those that were refused. -/
def submitSyncCommitteeMessages (messages : List SyncCommitteeMessage) :
    m (Except ApiError Unit) := do
  return (← client.send (.post "/eth/v1/beacon/pool/sync_committees" messages)).map fun _ => ()

end BeaconApi.Client
