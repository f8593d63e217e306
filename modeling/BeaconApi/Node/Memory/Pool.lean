import BeaconApi.Node.Memory.Chain

namespace BeaconApi.Memory

/-- Pass something on. A syncing node does not, and says so. -/
def publish (s : Memory) (item : Gossip) : Bool × Memory :=
  if s.syncing then (true, s) else (false, { s with published := s.published.push item })

/-- The attestations in the pool that pass the filters. -/
def attestationsOf (s : Memory) (slot : Option Slot) (index : Option CommitteeIndex) :
    List Attestation :=
  s.attestations.filter fun a => wanted slot a.data.slot && wanted index a.data.index

/-- Add an attestation to the pool. -/
def addAttestation (s : Memory) (attestation : Attestation) : Memory :=
  { s with attestations := s.attestations ++ [attestation] }

/-- Add a voluntary exit to the pool. A validator can have only one there. -/
def addVoluntaryExit (s : Memory) (exit : SignedVoluntaryExit) :
    Except BackendError Unit × Memory :=
  let index := exit.message.validatorIndex
  if s.voluntaryExits.any fun e => e.message.validatorIndex = index then
    (.error (.invalid ("validator " ++ index.display ++ " already has a pending exit")), s)
  else (.ok (), { s with voluntaryExits := s.voluntaryExits ++ [exit] })

/-- Add a sync committee message to the pool. Its block must be in the chain. -/
def addSyncCommitteeMessage (s : Memory) (message : SyncCommitteeMessage) :
    Except BackendError Unit × Memory :=
  if s.entries.contains message.beaconBlockRoot then
    (.ok (), { s with syncCommitteeMessages := s.syncCommitteeMessages ++ [message] })
  else
    (.error (.invalid ("unknown beacon block root " ++ message.beaconBlockRoot.display)), s)

end BeaconApi.Memory
