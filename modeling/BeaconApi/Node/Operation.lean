import BeaconApi.Beacon.Block
import BeaconApi.Beacon.Identifier
import BeaconApi.Beacon.Status
import BeaconApi.Node.Error

universe u

namespace BeaconApi

/-- What a chain knows about a block and the state after it. -/
structure ChainEntry where
  slot : Slot
  blockRoot : Root
  parentRoot : Root
  stateRoot : Root
  bodyRoot : Root
  proposerIndex : ValidatorIndex
deriving DecidableEq

/-- What a node passes on to its peers. -/
inductive Gossip
  | block (block : SignedBeaconBlock)
  | attestation (attestation : Attestation)
  | voluntaryExit (exit : SignedVoluntaryExit)
  | syncCommitteeMessage (message : SyncCommitteeMessage)
deriving DecidableEq

/-- A step of a node. -/
inductive Operation : Type → Type
  | genesis : Operation GenesisResponse
  | head : Operation (Option ChainEntry)
  | finalized : Operation (Option ChainEntry)
  | justified : Operation (Option ChainEntry)
  | byBlockRoot (root : Root) : Operation (Option ChainEntry)
  | byStateRoot (root : Root) : Operation (Option ChainEntry)
  /-- The canonical entry of a slot. -/
  | canonicalAt (slot : Slot) : Operation (Option ChainEntry)
  /-- The entries of a parent and a slot. Without either, those at the slot of the head. -/
  | search (parentRoot : Option Root) (slot : Option Slot) : Operation (List ChainEntry)
  | finality (entry : ChainEntry) : Operation FinalityCheckpoints
  /-- Add a block of a known root to the chain. -/
  | addBlock (root : Root) (block : SignedBeaconBlock) : Operation (Except BackendError Unit)
  | syncStatus : Operation SyncingStatus
  | getBlock (root : Root) : Operation (Except BackendError (Option SignedBeaconBlock))
  /-- Keep a block and give its root. -/
  | storeBlock (block : SignedBeaconBlock) : Operation (Except BackendError Root)
  /-- Pass something on, or report that the node is syncing and does not. -/
  | publish (item : Gossip) : Operation (Except BackendError Bool)
  | attestations (slot : Option Slot) (index : Option CommitteeIndex) : Operation (List Attestation)
  | addAttestation (attestation : Attestation) : Operation (Except BackendError Unit)
  | voluntaryExits : Operation (List SignedVoluntaryExit)
  | addVoluntaryExit (exit : SignedVoluntaryExit) : Operation (Except BackendError Unit)
  | addSyncCommitteeMessage (message : SyncCommitteeMessage) : Operation (Except BackendError Unit)
  | produceBlock (slot : Slot) (randaoReveal : BlsSignature) (graffiti : Root) :
      Operation (Except BackendError Phase0.BeaconBlock)
  | proposerDuties (epoch : Epoch) : Operation (Except BackendError DependentProposerDuty)

/-- Something that carries out the operations of a node. -/
structure Backend (m : Type → Type u) where
  perform : {α : Type} → Operation α → m α

namespace Backend

variable {m : Type → Type u} (node : Backend m)

/-- The entry that a block identifier names. -/
def lookupBlock : BlockId → m (Option ChainEntry)
  | .root root => node.perform (.byBlockRoot root)
  | .slot slot => node.perform (.canonicalAt slot)
  | .head => node.perform .head
  | .genesis => node.perform (.canonicalAt ⟨0⟩)
  | .finalized => node.perform .finalized

/-- The entry that a state identifier names. -/
def lookupState : StateId → m (Option ChainEntry)
  | .root root => node.perform (.byStateRoot root)
  | .slot slot => node.perform (.canonicalAt slot)
  | .head => node.perform .head
  | .genesis => node.perform (.canonicalAt ⟨0⟩)
  | .finalized => node.perform .finalized
  | .justified => node.perform .justified

end Backend

end BeaconApi
