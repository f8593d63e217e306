import BeaconApi.Beacon.Bytes
import BeaconApi.Beacon.Quantity

namespace BeaconApi

open Payload (shape toCarrier ofCarrier ofCarrier_toCarrier)

/-- How far a node is behind the chain. -/
structure SyncingStatus where
  /-- The slot of the head that the node is trying to reach. -/
  headSlot : Slot
  /-- How many slots the node is behind. -/
  syncDistance : Slot
  isSyncing : Bool
deriving DecidableEq, Inhabited

instance : Payload SyncingStatus where
  shape := .record "SyncingStatus" <|
    .required "head_slot" (shape Slot) <|
    .required "sync_distance" (shape Slot) <|
    .required "is_syncing" (shape Bool) .nil
  toCarrier x := (toCarrier x.headSlot, toCarrier x.syncDistance, toCarrier x.isSyncing, ())
  ofCarrier := fun (headSlot, syncDistance, isSyncing, ()) =>
    ⟨ofCarrier headSlot, ofCarrier syncDistance, ofCarrier isSyncing⟩
  ofCarrier_toCarrier x := by simp [ofCarrier_toCarrier]

/-- The version of a node. -/
structure NodeVersionResponse where
  version : String
deriving DecidableEq, Inhabited

instance : Payload NodeVersionResponse where
  shape := .record "NodeVersionResponse" <|
    .required "version" (shape String) .nil
  toCarrier x := (toCarrier x.version, ())
  ofCarrier := fun (version, ()) => ⟨ofCarrier version⟩
  ofCarrier_toCarrier x := by simp [ofCarrier_toCarrier]

/-- The validator that proposes the block of a slot. -/
structure ProposerDuty where
  pubkey : BlsPubkey
  validatorIndex : ValidatorIndex
  slot : Slot
deriving DecidableEq, Inhabited

instance : Payload ProposerDuty where
  shape := .record "ProposerDuty" <|
    .required "pubkey" (shape BlsPubkey) <|
    .required "validator_index" (shape ValidatorIndex) <|
    .required "slot" (shape Slot) .nil
  toCarrier x := (toCarrier x.pubkey, toCarrier x.validatorIndex, toCarrier x.slot, ())
  ofCarrier := fun (pubkey, validatorIndex, slot, ()) =>
    ⟨ofCarrier pubkey, ofCarrier validatorIndex, ofCarrier slot⟩
  ofCarrier_toCarrier x := by simp [ofCarrier_toCarrier]

/-- The duties of an epoch with the block root that they were computed from. -/
structure DependentProposerDuty where
  dependentRoot : Root
  data : List ProposerDuty
deriving DecidableEq, Inhabited

instance : Payload DependentProposerDuty where
  shape := .record "DependentProposerDuty" <|
    .required "dependent_root" (shape Root) <|
    .required "data" (shape (List ProposerDuty)) .nil
  toCarrier x := (toCarrier x.dependentRoot, toCarrier x.data, ())
  ofCarrier := fun (dependentRoot, data, ()) => ⟨ofCarrier dependentRoot, ofCarrier data⟩
  ofCarrier_toCarrier x := by simp [ofCarrier_toCarrier]

end BeaconApi
