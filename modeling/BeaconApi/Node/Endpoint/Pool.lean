import BeaconApi.Node.Batch
import BeaconApi.Node.Endpoint.Basic

universe u

namespace BeaconApi.Endpoint

variable {m : Type → Type u} [Monad m]

/-- The response to a batch. Failures are reported before anything else. -/
def batchReply (outcome : BatchOutcome) (syncing done : String) : PreparedResponse :=
  if !outcome.failures.isEmpty then .badInputs "cannot store/publish" outcome.failures
  else if outcome.syncing then .syncing syncing
  else .okMessage done

/-- Store an attestation and pass it on. The root of its target must be in the chain. -/
def acceptAttestation (node : Backend m) (attestation : Attestation) :
    m (Except BackendError Bool) := do
  let target := attestation.data.target.root
  match ← node.perform (.byBlockRoot target) with
  | none => return .error (.invalid ("unknown target root " ++ target.display))
  | some _ =>
    match ← node.perform (.addAttestation attestation) with
    | .error e => return .error e
    | .ok () => node.perform (.publish (.attestation attestation))

/-- Store a sync committee message and pass it on. -/
def acceptSyncCommitteeMessage (node : Backend m) (message : SyncCommitteeMessage) :
    m (Except BackendError Bool) := do
  match ← node.perform (.addSyncCommitteeMessage message) with
  | .error e => return .error e
  | .ok () => node.perform (.publish (.syncCommitteeMessage message))

/-- The attestations in the pool that the query asks for. -/
def poolAttestations : Endpoint m := fun node r => do
  let slot : Option Slot ← queryParam r "slot"
  let index : Option CommitteeIndex ← queryParam r "committee_index"
  return .okData (← node.ask (.attestations slot index))

/-- Store attestations and pass them on. -/
def publishAttestations : Endpoint m := fun node r => do
  let attestations : List Attestation ← readBody r
  let outcome ← ExceptT.lift (acceptIndexed attestations (acceptAttestation node))
  return batchReply outcome "beacon is syncing, stored attestations but cannot publish them"
    "stored and broadcast all attestations"

/-- The voluntary exits in the pool. -/
def poolVoluntaryExits : Endpoint m := fun node _ => do
  return .okData (← node.ask .voluntaryExits)

/-- Store a voluntary exit and pass it on. -/
def publishVoluntaryExit : Endpoint m := fun node r => do
  let exit : SignedVoluntaryExit ← readBody r
  match ← node.ask (.addVoluntaryExit exit) with
  | .error e => throw e.toResponse
  | .ok () =>
    match ← node.ask (.publish (.voluntaryExit exit)) with
    | .error e => throw (.internalError ("failed to publish voluntary exit: " ++ e.message))
    | .ok true => throw (.syncing "beacon is syncing, stored voluntary exit but cannot publish it")
    | .ok false => return .okMessage "stored and broadcast voluntary exit"

/-- Store sync committee messages and pass them on. -/
def publishSyncCommitteeMessages : Endpoint m := fun node r => do
  let messages : List SyncCommitteeMessage ← readBody r
  let outcome ← ExceptT.lift (acceptIndexed messages (acceptSyncCommitteeMessage node))
  return batchReply outcome
    "beacon is syncing, stored sync committee messages but cannot publish them"
    "stored and broadcast all sync committee messages"

end BeaconApi.Endpoint
