import BeaconApi.Beacon.Pool

namespace BeaconApi

open Payload (shape toCarrier ofCarrier ofCarrier_toCarrier)

namespace Phase0

/-- The contents of a block. -/
structure BeaconBlockBody where
  randaoReveal : BlsSignature
  graffiti : Root
  attestations : List Attestation
  voluntaryExits : List SignedVoluntaryExit
deriving DecidableEq, Inhabited

instance : Payload BeaconBlockBody where
  shape := .record "BeaconBlockBody" <|
    .required "randao_reveal" (shape BlsSignature) <|
    .required "graffiti" (shape Root) <|
    .required "attestations" (shape (List Attestation)) <|
    .required "voluntary_exits" (shape (List SignedVoluntaryExit)) .nil
  toCarrier x :=
    (toCarrier x.randaoReveal, toCarrier x.graffiti, toCarrier x.attestations,
      toCarrier x.voluntaryExits, ())
  ofCarrier := fun (randaoReveal, graffiti, attestations, voluntaryExits, ()) =>
    ⟨ofCarrier randaoReveal, ofCarrier graffiti, ofCarrier attestations, ofCarrier voluntaryExits⟩
  ofCarrier_toCarrier x := by simp [ofCarrier_toCarrier]

/-- A block that has not been signed. -/
structure BeaconBlock where
  slot : Slot
  proposerIndex : ValidatorIndex
  parentRoot : Root
  stateRoot : Root
  body : BeaconBlockBody
deriving DecidableEq, Inhabited

instance : Payload BeaconBlock where
  shape := .record "BeaconBlock" <|
    .required "slot" (shape Slot) <|
    .required "proposer_index" (shape ValidatorIndex) <|
    .required "parent_root" (shape Root) <|
    .required "state_root" (shape Root) <|
    .required "body" (shape BeaconBlockBody) .nil
  toCarrier x :=
    (toCarrier x.slot, toCarrier x.proposerIndex, toCarrier x.parentRoot, toCarrier x.stateRoot,
      toCarrier x.body, ())
  ofCarrier := fun (slot, proposerIndex, parentRoot, stateRoot, body, ()) =>
    ⟨ofCarrier slot, ofCarrier proposerIndex, ofCarrier parentRoot, ofCarrier stateRoot,
      ofCarrier body⟩
  ofCarrier_toCarrier x := by simp [ofCarrier_toCarrier]

/-- A block with the signature of its proposer. -/
structure SignedBeaconBlock where
  message : BeaconBlock
  signature : BlsSignature
deriving DecidableEq, Inhabited

instance : Payload SignedBeaconBlock where
  shape := .record "SignedBeaconBlock" <|
    .required "message" (shape BeaconBlock) <|
    .required "signature" (shape BlsSignature) .nil
  toCarrier x := (toCarrier x.message, toCarrier x.signature, ())
  ofCarrier := fun (message, signature, ()) => ⟨ofCarrier message, ofCarrier signature⟩
  ofCarrier_toCarrier x := by simp [ofCarrier_toCarrier]

end Phase0

namespace Altair

/-- The contents of a block. -/
structure BeaconBlockBody where
  randaoReveal : BlsSignature
  graffiti : Root
  attestations : List Attestation
  voluntaryExits : List SignedVoluntaryExit
  syncAggregate : SyncAggregate
deriving DecidableEq, Inhabited

instance : Payload BeaconBlockBody where
  shape := .record "BeaconBlockBody" <|
    .required "randao_reveal" (shape BlsSignature) <|
    .required "graffiti" (shape Root) <|
    .required "attestations" (shape (List Attestation)) <|
    .required "voluntary_exits" (shape (List SignedVoluntaryExit)) <|
    .required "sync_aggregate" (shape SyncAggregate) .nil
  toCarrier x :=
    (toCarrier x.randaoReveal, toCarrier x.graffiti, toCarrier x.attestations,
      toCarrier x.voluntaryExits, toCarrier x.syncAggregate, ())
  ofCarrier := fun (randaoReveal, graffiti, attestations, voluntaryExits, syncAggregate, ()) =>
    ⟨ofCarrier randaoReveal, ofCarrier graffiti, ofCarrier attestations, ofCarrier voluntaryExits,
      ofCarrier syncAggregate⟩
  ofCarrier_toCarrier x := by simp [ofCarrier_toCarrier]

/-- A block that has not been signed. -/
structure BeaconBlock where
  slot : Slot
  proposerIndex : ValidatorIndex
  parentRoot : Root
  stateRoot : Root
  body : BeaconBlockBody
deriving DecidableEq, Inhabited

instance : Payload BeaconBlock where
  shape := .record "BeaconBlock" <|
    .required "slot" (shape Slot) <|
    .required "proposer_index" (shape ValidatorIndex) <|
    .required "parent_root" (shape Root) <|
    .required "state_root" (shape Root) <|
    .required "body" (shape BeaconBlockBody) .nil
  toCarrier x :=
    (toCarrier x.slot, toCarrier x.proposerIndex, toCarrier x.parentRoot, toCarrier x.stateRoot,
      toCarrier x.body, ())
  ofCarrier := fun (slot, proposerIndex, parentRoot, stateRoot, body, ()) =>
    ⟨ofCarrier slot, ofCarrier proposerIndex, ofCarrier parentRoot, ofCarrier stateRoot,
      ofCarrier body⟩
  ofCarrier_toCarrier x := by simp [ofCarrier_toCarrier]

/-- A block with the signature of its proposer. -/
structure SignedBeaconBlock where
  message : BeaconBlock
  signature : BlsSignature
deriving DecidableEq, Inhabited

instance : Payload SignedBeaconBlock where
  shape := .record "SignedBeaconBlock" <|
    .required "message" (shape BeaconBlock) <|
    .required "signature" (shape BlsSignature) .nil
  toCarrier x := (toCarrier x.message, toCarrier x.signature, ())
  ofCarrier := fun (message, signature, ()) => ⟨ofCarrier message, ofCarrier signature⟩
  ofCarrier_toCarrier x := by simp [ofCarrier_toCarrier]

end Altair

/-- The name of a fork. -/
inductive ForkName
  | phase0
  | altair
deriving DecidableEq, Repr, Inhabited

/-- The lowercase name of a fork, as it stands in texts and headers. -/
def ForkName.display : ForkName → String
  | .phase0 => "phase0"
  | .altair => "altair"

instance : Payload ForkName where
  shape := .choice "phase0" "altair"
  toCarrier
    | .phase0 => .first
    | .altair => .second
  ofCarrier := Wire.Branch.choose .phase0 .altair
  ofCarrier_toCarrier fork := by cases fork <;> rfl

/-- A signed block of either fork. -/
inductive SignedBeaconBlock
  | altair (block : Altair.SignedBeaconBlock)
  | phase0 (block : Phase0.SignedBeaconBlock)
deriving DecidableEq, Inhabited

instance : Payload SignedBeaconBlock where
  shape := .either "SignedBeaconBlock" (shape Altair.SignedBeaconBlock)
    (shape Phase0.SignedBeaconBlock)
  toCarrier
    | .altair block => .inl (toCarrier block)
    | .phase0 block => .inr (toCarrier block)
  ofCarrier
    | .inl block => .altair (ofCarrier block)
    | .inr block => .phase0 (ofCarrier block)
  ofCarrier_toCarrier block := by cases block <;> simp [ofCarrier_toCarrier]

/-- A signed block that is sent with the name of its fork. -/
inductive VersionedSignedBeaconBlock
  | phase0 (block : Phase0.SignedBeaconBlock)
  | altair (block : Altair.SignedBeaconBlock)
deriving DecidableEq, Inhabited

instance : Payload VersionedSignedBeaconBlock where
  shape := .tagged "VersionedSignedBeaconBlock" "version" "data" "phase0" "altair"
    (shape Phase0.SignedBeaconBlock) (shape Altair.SignedBeaconBlock)
  toCarrier
    | .phase0 block => .inl (toCarrier block)
    | .altair block => .inr (toCarrier block)
  ofCarrier
    | .inl block => .phase0 (ofCarrier block)
    | .inr block => .altair (ofCarrier block)
  ofCarrier_toCarrier block := by cases block <;> simp [ofCarrier_toCarrier]

namespace SignedBeaconBlock

/-- The fork of a block. -/
def fork : SignedBeaconBlock → ForkName
  | .altair _ => .altair
  | .phase0 _ => .phase0

/-- The slot of a block. -/
def slot : SignedBeaconBlock → Slot
  | .altair block => block.message.slot
  | .phase0 block => block.message.slot

/-- The validator that proposed a block. -/
def proposerIndex : SignedBeaconBlock → ValidatorIndex
  | .altair block => block.message.proposerIndex
  | .phase0 block => block.message.proposerIndex

/-- The root of the block before a block. -/
def parentRoot : SignedBeaconBlock → Root
  | .altair block => block.message.parentRoot
  | .phase0 block => block.message.parentRoot

/-- The root of the state after a block. -/
def stateRoot : SignedBeaconBlock → Root
  | .altair block => block.message.stateRoot
  | .phase0 block => block.message.stateRoot

/-- The signature of a block. -/
def signature : SignedBeaconBlock → BlsSignature
  | .altair block => block.signature
  | .phase0 block => block.signature

/-- The attestations in a block. -/
def attestations : SignedBeaconBlock → List Attestation
  | .altair block => block.message.body.attestations
  | .phase0 block => block.message.body.attestations

/-- The signed header of a block, given the root of its body. -/
def signedHeader (block : SignedBeaconBlock) (bodyRoot : Root) : SignedBeaconBlockHeader where
  message :=
    { slot := block.slot
      proposerIndex := block.proposerIndex
      parentRoot := block.parentRoot
      stateRoot := block.stateRoot
      bodyRoot }
  signature := block.signature

/-- A block together with the name of its fork. -/
def versioned : SignedBeaconBlock → VersionedSignedBeaconBlock
  | .phase0 block => .phase0 block
  | .altair block => .altair block

end SignedBeaconBlock

namespace VersionedSignedBeaconBlock

/-- The fork that a block is sent under. -/
def version : VersionedSignedBeaconBlock → ForkName
  | .phase0 _ => .phase0
  | .altair _ => .altair

/-- The block without the name of its fork. -/
def block : VersionedSignedBeaconBlock → SignedBeaconBlock
  | .phase0 block => .phase0 block
  | .altair block => .altair block

end VersionedSignedBeaconBlock

end BeaconApi
