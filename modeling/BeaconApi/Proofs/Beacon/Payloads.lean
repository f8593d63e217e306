import BeaconApi.Beacon.Block
import BeaconApi.Beacon.Status
import BeaconApi.Proofs.Api.Contents

namespace BeaconApi

/-- The payloads that are not a choice between forks. -/
inductive PayloadKind
  | quantity (m : Measure)
  | bytes (length : Nat)
  | checkpoint
  | fork
  | finalityCheckpoints
  | genesis
  | root
  | header
  | signedHeader
  | headerAndInfo
  | attestationData
  | attestation
  | voluntaryExit
  | signedVoluntaryExit
  | syncCommitteeMessage
  | syncAggregate
  | syncingStatus
  | nodeVersion
  | proposerDuty
  | dependentProposerDuty
  | phase0Body
  | phase0Block
  | phase0SignedBlock
  | altairBody
  | altairBlock
  | altairSignedBlock
  | forkName
  | statusMessage
deriving DecidableEq, Repr

namespace PayloadKind

/-- The values of a kind. -/
@[reducible] def Value : PayloadKind → Type
  | quantity m => Quantity m
  | bytes length => Bytes length
  | checkpoint => Checkpoint
  | fork => Fork
  | finalityCheckpoints => FinalityCheckpoints
  | genesis => GenesisResponse
  | root => RootResponse
  | header => BeaconBlockHeader
  | signedHeader => SignedBeaconBlockHeader
  | headerAndInfo => BeaconBlockHeaderAndInfo
  | attestationData => AttestationData
  | attestation => Attestation
  | voluntaryExit => VoluntaryExit
  | signedVoluntaryExit => SignedVoluntaryExit
  | syncCommitteeMessage => SyncCommitteeMessage
  | syncAggregate => SyncAggregate
  | syncingStatus => SyncingStatus
  | nodeVersion => NodeVersionResponse
  | proposerDuty => ProposerDuty
  | dependentProposerDuty => DependentProposerDuty
  | phase0Body => Phase0.BeaconBlockBody
  | phase0Block => Phase0.BeaconBlock
  | phase0SignedBlock => Phase0.SignedBeaconBlock
  | altairBody => Altair.BeaconBlockBody
  | altairBlock => Altair.BeaconBlock
  | altairSignedBlock => Altair.SignedBeaconBlock
  | forkName => ForkName
  | statusMessage => StatusMessage

/-- Each kind travels as its values do. -/
instance payload : (kind : PayloadKind) → Payload kind.Value
  | quantity _ | bytes _ | checkpoint | fork | finalityCheckpoints | genesis | root | header
  | signedHeader | headerAndInfo | attestationData | attestation | voluntaryExit
  | signedVoluntaryExit | syncCommitteeMessage | syncAggregate | syncingStatus | nodeVersion
  | proposerDuty | dependentProposerDuty | phase0Body | phase0Block | phase0SignedBlock
  | altairBody | altairBlock | altairSignedBlock | forkName | statusMessage => inferInstance

open Payload (shape)
open Json (Document)

theorem shape_regular (kind : PayloadKind) : (shape kind.Value).regular := by
  cases kind with
  | quantity | bytes => rfl
  | _ => decide

/-- There is room for an envelope around a list of any payload. -/
theorem shape_depth (kind : PayloadKind) : (shape kind.Value).depth + 2 ≤ Document.maxDepth := by
  cases kind with
  | quantity | bytes => exact Nat.le_of_ble_eq_true rfl
  | _ => decide

/-- Values of every `PayloadKind` are read back as they were written, alone and in an `Envelope`, a list or
both, by `Body.decode`, `Body.decodeContents` and `Body.decodeResponse`. No premise excludes any number, byte
string or text. -/
theorem readsBack_everywhere (kind : PayloadKind) :
    (∀ x : kind.Value, Body.ReadsBack x) ∧
    (∀ x : Envelope kind.Value, Body.ReadsBack x) ∧
    (∀ xs : List kind.Value, Body.ReadsBack xs) ∧
    (∀ xs : Envelope (List kind.Value), Body.ReadsBack xs) := by
  have hregular := kind.shape_regular
  have hdepth := kind.shape_depth
  refine ⟨.of_regular hregular ?_, .of_envelope hregular ?_, .of_list hregular ?_, .of_envelope hregular ?_⟩
  · omega
  · omega
  · omega
  · exact hdepth

end PayloadKind

end BeaconApi
