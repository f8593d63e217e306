import BeaconApi.Beacon.Bytes
import BeaconApi.Beacon.Quantity

namespace BeaconApi

open Payload (shape toCarrier ofCarrier ofCarrier_toCarrier)

/-- An epoch and the root of its first block. -/
structure Checkpoint where
  epoch : Epoch
  root : Root
deriving DecidableEq, Inhabited

instance : Payload Checkpoint where
  shape := .record "Checkpoint" <|
    .required "epoch" (shape Epoch) <|
    .required "root" (shape Root) .nil
  toCarrier x := (toCarrier x.epoch, toCarrier x.root, ())
  ofCarrier := fun (epoch, root, ()) => ⟨ofCarrier epoch, ofCarrier root⟩
  ofCarrier_toCarrier x := by simp [ofCarrier_toCarrier]

/-- A fork version, the one before it, and the epoch of the change. -/
structure Fork where
  previousVersion : Version
  currentVersion : Version
  epoch : Epoch
deriving DecidableEq, Inhabited

instance : Payload Fork where
  shape := .record "Fork" <|
    .required "previous_version" (shape Version) <|
    .required "current_version" (shape Version) <|
    .required "epoch" (shape Epoch) .nil
  toCarrier x := (toCarrier x.previousVersion, toCarrier x.currentVersion, toCarrier x.epoch, ())
  ofCarrier := fun (previousVersion, currentVersion, epoch, ()) =>
    ⟨ofCarrier previousVersion, ofCarrier currentVersion, ofCarrier epoch⟩
  ofCarrier_toCarrier x := by simp [ofCarrier_toCarrier]

/-- The checkpoints that a state holds justified or final. -/
structure FinalityCheckpoints where
  previousJustified : Checkpoint
  currentJustified : Checkpoint
  finalized : Checkpoint
deriving DecidableEq, Inhabited

instance : Payload FinalityCheckpoints where
  shape := .record "FinalityCheckpoints" <|
    .required "previous_justified" (shape Checkpoint) <|
    .required "current_justified" (shape Checkpoint) <|
    .required "finalized" (shape Checkpoint) .nil
  toCarrier x :=
    (toCarrier x.previousJustified, toCarrier x.currentJustified, toCarrier x.finalized, ())
  ofCarrier := fun (previousJustified, currentJustified, finalized, ()) =>
    ⟨ofCarrier previousJustified, ofCarrier currentJustified, ofCarrier finalized⟩
  ofCarrier_toCarrier x := by simp [ofCarrier_toCarrier]

/-- How the chain began. -/
structure GenesisResponse where
  genesisTime : Timestamp
  genesisValidatorsRoot : Root
  genesisForkVersion : Version
deriving DecidableEq, Inhabited

instance : Payload GenesisResponse where
  shape := .record "GenesisResponse" <|
    .required "genesis_time" (shape Timestamp) <|
    .required "genesis_validators_root" (shape Root) <|
    .required "genesis_fork_version" (shape Version) .nil
  toCarrier x :=
    (toCarrier x.genesisTime, toCarrier x.genesisValidatorsRoot, toCarrier x.genesisForkVersion, ())
  ofCarrier := fun (genesisTime, genesisValidatorsRoot, genesisForkVersion, ()) =>
    ⟨ofCarrier genesisTime, ofCarrier genesisValidatorsRoot, ofCarrier genesisForkVersion⟩
  ofCarrier_toCarrier x := by simp [ofCarrier_toCarrier]

/-- A root that was asked for. -/
structure RootResponse where
  root : Root
deriving DecidableEq, Inhabited

instance : Payload RootResponse where
  shape := .record "RootResponse" <|
    .required "root" (shape Root) .nil
  toCarrier x := (toCarrier x.root, ())
  ofCarrier := fun (root, ()) => ⟨ofCarrier root⟩
  ofCarrier_toCarrier x := by simp [ofCarrier_toCarrier]

/-- A block with the root of its body in place of the body. -/
structure BeaconBlockHeader where
  slot : Slot
  proposerIndex : ValidatorIndex
  parentRoot : Root
  stateRoot : Root
  bodyRoot : Root
deriving DecidableEq, Inhabited

instance : Payload BeaconBlockHeader where
  shape := .record "BeaconBlockHeader" <|
    .required "slot" (shape Slot) <|
    .required "proposer_index" (shape ValidatorIndex) <|
    .required "parent_root" (shape Root) <|
    .required "state_root" (shape Root) <|
    .required "body_root" (shape Root) .nil
  toCarrier x :=
    (toCarrier x.slot, toCarrier x.proposerIndex, toCarrier x.parentRoot, toCarrier x.stateRoot,
      toCarrier x.bodyRoot, ())
  ofCarrier := fun (slot, proposerIndex, parentRoot, stateRoot, bodyRoot, ()) =>
    ⟨ofCarrier slot, ofCarrier proposerIndex, ofCarrier parentRoot, ofCarrier stateRoot,
      ofCarrier bodyRoot⟩
  ofCarrier_toCarrier x := by simp [ofCarrier_toCarrier]

/-- A header with the signature of its block. -/
structure SignedBeaconBlockHeader where
  message : BeaconBlockHeader
  signature : BlsSignature
deriving DecidableEq, Inhabited

instance : Payload SignedBeaconBlockHeader where
  shape := .record "SignedBeaconBlockHeader" <|
    .required "message" (shape BeaconBlockHeader) <|
    .required "signature" (shape BlsSignature) .nil
  toCarrier x := (toCarrier x.message, toCarrier x.signature, ())
  ofCarrier := fun (message, signature, ()) => ⟨ofCarrier message, ofCarrier signature⟩
  ofCarrier_toCarrier x := by simp [ofCarrier_toCarrier]

/-- A signed header with the root of its block. -/
structure BeaconBlockHeaderAndInfo where
  root : Root
  /-- Whether the block is on the canonical chain. -/
  canonical : Bool
  header : SignedBeaconBlockHeader
deriving DecidableEq, Inhabited

instance : Payload BeaconBlockHeaderAndInfo where
  shape := .record "BeaconBlockHeaderAndInfo" <|
    .required "root" (shape Root) <|
    .required "canonical" (shape Bool) <|
    .required "header" (shape SignedBeaconBlockHeader) .nil
  toCarrier x := (toCarrier x.root, toCarrier x.canonical, toCarrier x.header, ())
  ofCarrier := fun (root, canonical, header, ()) =>
    ⟨ofCarrier root, ofCarrier canonical, ofCarrier header⟩
  ofCarrier_toCarrier x := by simp [ofCarrier_toCarrier]

end BeaconApi
