import BeaconApi.Map.Table
import BeaconApi.Node.Operation

namespace BeaconApi

/-- The eight bytes of an integer, the most significant one first. -/
def bigEndian (n : UInt64) : Vector UInt8 8 :=
  Vector.ofFn fun i => UInt8.ofNat (n.toNat / Nat.pow 256 (7 - i.val))

/-- What a derived root stands for, as its last byte tells. -/
inductive RootKind
  | validators
  | state
  | block
  | body
deriving DecidableEq

/-- The last byte of the derived roots of a kind. -/
def RootKind.tag : RootKind → UInt8
  | .validators => 0x01
  | .state => 0x57
  | .block => 0xb1
  | .body => 0xbd

/-- The root that is derived from a running number and a slot. -/
def derivedRoot (sequence : UInt64) (slot : Slot) (kind : RootKind) : Root :=
  ⟨bigEndian sequence ++ bigEndian slot.val ++ Vector.replicate 15 (0 : UInt8) ++ #v[kind.tag]⟩

/-- The root of the body of a block, derived from the root of the block. -/
def bodyRootOf (blockRoot : Root) : Root := ⟨blockRoot.val.set 31 RootKind.body.tag⟩

/-- The number of slots in an epoch. -/
def slotsPerEpoch : Nat := 32

/-- The number of validators that take turns in proposing. -/
def validatorCount : Nat := 64

/-- The epoch of a slot. -/
def epochOf (slot : Slot) : Epoch := ⟨UInt64.ofNat (slot.val.toNat / slotsPerEpoch)⟩

/-- The validator that proposes at a slot. -/
def proposerAt (slot : Slot) : ValidatorIndex := ⟨UInt64.ofNat (slot.val.toNat % validatorCount)⟩

/-- Everything that a node has passed on, in order. -/
structure Published where
  blocks : List SignedBeaconBlock
  attestations : List Attestation
  voluntaryExits : List SignedVoluntaryExit
  syncCommitteeMessages : List SyncCommitteeMessage
deriving DecidableEq

/-- Nothing has been passed on. -/
def Published.none : Published := ⟨[], [], [], []⟩

/-- Pass on one more item. -/
def Published.push (published : Published) : Gossip → Published
  | .block b => { published with blocks := published.blocks ++ [b] }
  | .attestation a => { published with attestations := published.attestations ++ [a] }
  | .voluntaryExit e => { published with voluntaryExits := published.voluntaryExits ++ [e] }
  | .syncCommitteeMessage m =>
    { published with syncCommitteeMessages := published.syncCommitteeMessages ++ [m] }

/-- A node in memory. `entries` is the chain with all its forks, `canonical` the part of it that
leads to the head, and `blocks` holds every block that was stored, whether it became part of the
chain or not. -/
structure Memory where
  genesisTime : Timestamp
  blocks : Table Root SignedBeaconBlock
  entries : Table Root ChainEntry
  canonical : Table Slot Root
  head : Root
  finalized : Root
  justified : Root
  attestations : List Attestation
  voluntaryExits : List SignedVoluntaryExit
  syncCommitteeMessages : List SyncCommitteeMessage
  published : Published
  syncing : Bool
  nextSequence : UInt64

/-- The root of the first block. -/
def genesisRoot : Root := derivedRoot 0 ⟨0⟩ .block

/-- The first block, which nobody has signed. -/
def genesisBlock : SignedBeaconBlock :=
  .phase0 { (default : Phase0.SignedBeaconBlock) with
    message := { (default : Phase0.BeaconBlock) with stateRoot := derivedRoot 0 ⟨0⟩ .state } }

/-- The entry of the first block. -/
def genesisEntry : ChainEntry where
  slot := ⟨0⟩
  blockRoot := genesisRoot
  parentRoot := .zero
  stateRoot := genesisBlock.stateRoot
  bodyRoot := bodyRootOf genesisRoot
  proposerIndex := ⟨0⟩

namespace Memory

/-- A node whose chain holds nothing but the first block, which is head, justified and finalized. -/
def new (genesisTime : Timestamp) : Memory where
  genesisTime
  blocks := .single genesisRoot genesisBlock
  entries := .single genesisRoot genesisEntry
  canonical := .single ⟨0⟩ genesisRoot
  head := genesisRoot
  finalized := genesisRoot
  justified := genesisRoot
  attestations := []
  voluntaryExits := []
  syncCommitteeMessages := []
  published := .none
  syncing := false
  nextSequence := 1

/-- How the chain of a node began. -/
def genesis (s : Memory) : GenesisResponse where
  genesisTime := s.genesisTime
  genesisValidatorsRoot := derivedRoot 0 ⟨0⟩ .validators
  genesisForkVersion := .zero

/-- Let a node sync, or let it be done with that. -/
def setSyncing (s : Memory) (syncing : Bool) : Memory := { s with syncing }

end Memory

end BeaconApi
