import BeaconApi.Node.Memory.Perform

namespace BeaconApi

/-- What a fault concerns. -/
inductive FaultPoint
  | head
  | get
  | store
  | addBlock
  | publishBlock
  | publishAttestation
  | publishVoluntaryExit
  | publishSyncCommitteeMessage
  | addAttestation
  | addVoluntaryExit
  | addSyncCommitteeMessage
  | produceBlock
  | proposerDuties
deriving DecidableEq, Repr

namespace FaultPoint

/-- All points at which a fault can be set. -/
def all : List FaultPoint :=
  [.head, .get, .store, .addBlock, .publishBlock, .publishAttestation, .publishVoluntaryExit,
    .publishSyncCommitteeMessage, .addAttestation, .addVoluntaryExit, .addSyncCommitteeMessage,
    .produceBlock, .proposerDuties]

/-- The name of a point. -/
def name : FaultPoint → String
  | .head => "head"
  | .get => "get"
  | .store => "store"
  | .addBlock => "add_block"
  | .publishBlock => "publish_block"
  | .publishAttestation => "publish_attestation"
  | .publishVoluntaryExit => "publish_voluntary_exit"
  | .publishSyncCommitteeMessage => "publish_sync_committee_message"
  | .addAttestation => "add_attestation"
  | .addVoluntaryExit => "add_voluntary_exit"
  | .addSyncCommitteeMessage => "add_sync_committee_message"
  | .produceBlock => "produce_block"
  | .proposerDuties => "proposer_duties"

/-- The point of a name. -/
def ofName? (name : String) : Option FaultPoint := all.find? fun p => p.name = name

end FaultPoint

/-- The point at which a fault concerns an operation, and the outcome of the operation then. The
head of a chain with a fault is unknown, whatever the error. -/
def Operation.failure? {α : Type} : Operation α → Option (FaultPoint × (BackendError → α))
  | .head => some (.head, fun _ => none)
  | .getBlock _ => some (.get, .error)
  | .storeBlock _ => some (.store, .error)
  | .addBlock _ _ => some (.addBlock, .error)
  | .publish (.block _) => some (.publishBlock, .error)
  | .publish (.attestation _) => some (.publishAttestation, .error)
  | .publish (.voluntaryExit _) => some (.publishVoluntaryExit, .error)
  | .publish (.syncCommitteeMessage _) => some (.publishSyncCommitteeMessage, .error)
  | .addAttestation _ => some (.addAttestation, .error)
  | .addVoluntaryExit _ => some (.addVoluntaryExit, .error)
  | .addSyncCommitteeMessage _ => some (.addSyncCommitteeMessage, .error)
  | .produceBlock _ _ _ => some (.produceBlock, .error)
  | .proposerDuties _ => some (.proposerDuties, .error)
  | .genesis | .finalized | .justified | .byBlockRoot _ | .byStateRoot _ | .canonicalAt _
  | .search _ _ | .finality _ | .syncStatus | .attestations _ _ | .voluntaryExits => none

/-- A node in memory with the faults that are set. -/
structure FaultyNode where
  memory : Memory
  faults : List (FaultPoint × BackendError)

namespace FaultyNode

/-- A node without faults. -/
def ofMemory (memory : Memory) : FaultyNode := ⟨memory, []⟩

/-- Set a fault, or lift it. -/
def setFault (s : FaultyNode) (point : FaultPoint) (fault : Option BackendError) : FaultyNode :=
  let others := s.faults.filter fun f => f.1 ≠ point
  { s with
    faults :=
      match fault with
      | some e => (point, e) :: others
      | none => others }

/-- The fault that is set for an operation, as the outcome of the operation. -/
def outcome? {α : Type} (s : FaultyNode) (op : Operation α) : Option α := do
  let (point, outcome) ← op.failure?
  let e ← s.faults.lookup point
  return outcome e

/-- Carry out an operation, unless a fault is set for it. -/
def step {α : Type} (s : FaultyNode) (op : Operation α) : α × FaultyNode :=
  match s.outcome? op with
  | some x => (x, s)
  | none =>
    let (x, memory) := s.memory.step op
    (x, { s with memory })

/-- The node with its faults as a backend. -/
def backend : Backend (StateM FaultyNode) where
  perform op := fun s => s.step op

end FaultyNode

end BeaconApi
