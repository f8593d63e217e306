import BeaconApi.Beacon.Chain

namespace BeaconApi

open Payload (shape toCarrier ofCarrier ofCarrier_toCarrier)

/-- What an attestation votes for. -/
structure AttestationData where
  slot : Slot
  index : CommitteeIndex
  beaconBlockRoot : Root
  source : Checkpoint
  target : Checkpoint
deriving DecidableEq, Inhabited

instance : Payload AttestationData where
  shape := .record "AttestationData" <|
    .required "slot" (shape Slot) <|
    .required "index" (shape CommitteeIndex) <|
    .required "beacon_block_root" (shape Root) <|
    .required "source" (shape Checkpoint) <|
    .required "target" (shape Checkpoint) .nil
  toCarrier x :=
    (toCarrier x.slot, toCarrier x.index, toCarrier x.beaconBlockRoot, toCarrier x.source,
      toCarrier x.target, ())
  ofCarrier := fun (slot, index, beaconBlockRoot, source, target, ()) =>
    ⟨ofCarrier slot, ofCarrier index, ofCarrier beaconBlockRoot, ofCarrier source, ofCarrier target⟩
  ofCarrier_toCarrier x := by simp [ofCarrier_toCarrier]

/-- The vote of a committee. -/
structure Attestation where
  /-- The members that took part, as a serialized list of bits in hexadecimal. -/
  aggregationBits : String
  data : AttestationData
  signature : BlsSignature
deriving DecidableEq, Inhabited

instance : Payload Attestation where
  shape := .record "Attestation" <|
    .required "aggregation_bits" (shape String) <|
    .required "data" (shape AttestationData) <|
    .required "signature" (shape BlsSignature) .nil
  toCarrier x := (toCarrier x.aggregationBits, toCarrier x.data, toCarrier x.signature, ())
  ofCarrier := fun (aggregationBits, data, signature, ()) =>
    ⟨ofCarrier aggregationBits, ofCarrier data, ofCarrier signature⟩
  ofCarrier_toCarrier x := by simp [ofCarrier_toCarrier]

/-- The wish of a validator to leave. -/
structure VoluntaryExit where
  epoch : Epoch
  validatorIndex : ValidatorIndex
deriving DecidableEq, Inhabited

instance : Payload VoluntaryExit where
  shape := .record "VoluntaryExit" <|
    .required "epoch" (shape Epoch) <|
    .required "validator_index" (shape ValidatorIndex) .nil
  toCarrier x := (toCarrier x.epoch, toCarrier x.validatorIndex, ())
  ofCarrier := fun (epoch, validatorIndex, ()) => ⟨ofCarrier epoch, ofCarrier validatorIndex⟩
  ofCarrier_toCarrier x := by simp [ofCarrier_toCarrier]

/-- A voluntary exit with its signature. -/
structure SignedVoluntaryExit where
  message : VoluntaryExit
  signature : BlsSignature
deriving DecidableEq, Inhabited

instance : Payload SignedVoluntaryExit where
  shape := .record "SignedVoluntaryExit" <|
    .required "message" (shape VoluntaryExit) <|
    .required "signature" (shape BlsSignature) .nil
  toCarrier x := (toCarrier x.message, toCarrier x.signature, ())
  ofCarrier := fun (message, signature, ()) => ⟨ofCarrier message, ofCarrier signature⟩
  ofCarrier_toCarrier x := by simp [ofCarrier_toCarrier]

/-- The vote of a sync committee member for a block. -/
structure SyncCommitteeMessage where
  slot : Slot
  beaconBlockRoot : Root
  validatorIndex : ValidatorIndex
  signature : BlsSignature
deriving DecidableEq, Inhabited

instance : Payload SyncCommitteeMessage where
  shape := .record "SyncCommitteeMessage" <|
    .required "slot" (shape Slot) <|
    .required "beacon_block_root" (shape Root) <|
    .required "validator_index" (shape ValidatorIndex) <|
    .required "signature" (shape BlsSignature) .nil
  toCarrier x :=
    (toCarrier x.slot, toCarrier x.beaconBlockRoot, toCarrier x.validatorIndex,
      toCarrier x.signature, ())
  ofCarrier := fun (slot, beaconBlockRoot, validatorIndex, signature, ()) =>
    ⟨ofCarrier slot, ofCarrier beaconBlockRoot, ofCarrier validatorIndex, ofCarrier signature⟩
  ofCarrier_toCarrier x := by simp [ofCarrier_toCarrier]

/-- The votes of a sync committee. -/
structure SyncAggregate where
  /-- The members that took part, as a serialized vector of bits in hexadecimal. -/
  syncCommitteeBits : String
  syncCommitteeSignature : BlsSignature
deriving DecidableEq, Inhabited

instance : Payload SyncAggregate where
  shape := .record "SyncAggregate" <|
    .required "sync_committee_bits" (shape String) <|
    .required "sync_committee_signature" (shape BlsSignature) .nil
  toCarrier x := (toCarrier x.syncCommitteeBits, toCarrier x.syncCommitteeSignature, ())
  ofCarrier := fun (syncCommitteeBits, syncCommitteeSignature, ()) =>
    ⟨ofCarrier syncCommitteeBits, ofCarrier syncCommitteeSignature⟩
  ofCarrier_toCarrier x := by simp [ofCarrier_toCarrier]

end BeaconApi
