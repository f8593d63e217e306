import BeaconApi.Node.Memory.Duties
import BeaconApi.Node.Memory.Pool

namespace BeaconApi.Memory

/-- Carry out an operation. -/
def step {α : Type} (s : Memory) : Operation α → α × Memory
  | .genesis => (s.genesis, s)
  | .head => (s.head?, s)
  | .finalized => (s.entry? s.finalized, s)
  | .justified => (s.entry? s.justified, s)
  | .byBlockRoot root => (s.entry? root, s)
  | .byStateRoot root => (s.byStateRoot? root, s)
  | .canonicalAt slot => (s.canonicalAt? slot, s)
  | .search parentRoot slot => (s.search parentRoot slot, s)
  | .finality _ => (s.finality, s)
  | .addBlock root block => s.addBlock root block
  | .syncStatus => (s.syncStatus, s)
  | .getBlock root => (.ok (s.blocks.get? root), s)
  | .storeBlock block =>
    let (root, s) := s.storeBlock block
    (.ok root, s)
  | .publish item =>
    let (syncing, s) := s.publish item
    (.ok syncing, s)
  | .attestations slot index => (s.attestationsOf slot index, s)
  | .addAttestation attestation => (.ok (), s.addAttestation attestation)
  | .voluntaryExits => (s.voluntaryExits, s)
  | .addVoluntaryExit exit => s.addVoluntaryExit exit
  | .addSyncCommitteeMessage message => s.addSyncCommitteeMessage message
  | .produceBlock slot randaoReveal graffiti => (s.produceBlock slot randaoReveal graffiti, s)
  | .proposerDuties epoch => (s.proposerDuties epoch, s)

/-- The node in memory as a backend. -/
def backend : Backend (StateM Memory) where
  perform op := fun s => s.step op

end BeaconApi.Memory
