import BeaconApi.Node.Memory.Basic

namespace BeaconApi.Memory

/-- The entry of a block root. -/
def entry? (s : Memory) (root : Root) : Option ChainEntry := s.entries.get? root

/-- The entry of the head. -/
def head? (s : Memory) : Option ChainEntry := s.entry? s.head

/-- An entry with the given state root. -/
def byStateRoot? (s : Memory) (root : Root) : Option ChainEntry :=
  s.entries.values.find? fun e => e.stateRoot = root

/-- The canonical entry of a slot. -/
def canonicalAt? (s : Memory) (slot : Slot) : Option ChainEntry :=
  (s.canonical.get? slot).bind s.entry?

/-- Whether an entry stands before another: by its slot, then by its root. -/
def entryLE (a b : ChainEntry) : Bool :=
  a.slot.val < b.slot.val || (a.slot = b.slot && a.blockRoot.le b.blockRoot)

/-- Whether a value is the one that is wanted, if one is. -/
def wanted {α : Type} [DecidableEq α] (filter : Option α) (x : α) : Bool :=
  match filter with
  | none => true
  | some y => x = y

/-- The entries that pass the filters. Without a filter, the slot of the head is wanted. -/
def search (s : Memory) (parentRoot : Option Root) (slot : Option Slot) : List ChainEntry :=
  let slot :=
    match parentRoot, slot with
    | none, none => s.head?.map ChainEntry.slot
    | _, _ => slot
  (s.entries.values.filter fun e => wanted parentRoot e.parentRoot && wanted slot e.slot).mergeSort
    entryLE

/-- The checkpoint at a block. -/
def checkpoint (s : Memory) (root : Root) : Checkpoint where
  epoch := (s.entry? root).elim default fun e => epochOf e.slot
  root := root

/-- The checkpoints of the node, which are those of all its states. -/
def finality (s : Memory) : FinalityCheckpoints where
  previousJustified := s.checkpoint s.justified
  currentJustified := s.checkpoint s.justified
  finalized := s.checkpoint s.finalized

/-- Whether the node is syncing. It never knows of a later head than its own. -/
def syncStatus (s : Memory) : SyncingStatus where
  headSlot := s.head?.elim default ChainEntry.slot
  syncDistance := ⟨0⟩
  isSyncing := s.syncing

/-- Why a block cannot stand behind any block of the chain. -/
def unknownParent (block : SignedBeaconBlock) : BackendError :=
  .invalid ("unknown parent block " ++ block.parentRoot.display)

/-- Why a block cannot stand behind its parent. -/
def notAfterParent (block : SignedBeaconBlock) (parent : ChainEntry) : BackendError :=
  .invalid ("block slot " ++ block.slot.display ++ " is not after parent slot "
    ++ parent.slot.display)

/-- The entry of a block behind that of its parent. -/
def entryBehind (parent : ChainEntry) (root : Root) (block : SignedBeaconBlock) : ChainEntry where
  slot := block.slot
  blockRoot := root
  parentRoot := parent.blockRoot
  stateRoot := block.stateRoot
  bodyRoot := bodyRootOf root
  proposerIndex := block.proposerIndex

/-- Put an entry into the chain. An entry behind the head becomes the head. -/
def extend (s : Memory) (e : ChainEntry) : Memory :=
  let s' := { s with entries := s.entries.insert e.blockRoot e }
  if e.parentRoot = s.head then
    { s' with head := e.blockRoot, canonical := s.canonical.insert e.slot e.blockRoot }
  else s'

/-- Add a block to the chain. Nothing happens if its root is there already. -/
def addBlock (s : Memory) (root : Root) (block : SignedBeaconBlock) :
    Except BackendError Unit × Memory :=
  if s.entries.contains root then (.ok (), s)
  else
    match s.entry? block.parentRoot with
    | none => (.error (unknownParent block), s)
    | some parent =>
      if block.slot.val ≤ parent.slot.val then (.error (notAfterParent block parent), s)
      else (.ok (), s.extend (entryBehind parent root block))

/-- Keep a block under a new root. -/
def storeBlock (s : Memory) (block : SignedBeaconBlock) : Root × Memory :=
  let root := derivedRoot s.nextSequence block.slot .block
  (root, { s with nextSequence := s.nextSequence + 1, blocks := s.blocks.insert root block })

/-- Keep a block and add it to the chain. -/
def insertBlock (s : Memory) (block : SignedBeaconBlock) : Except BackendError Root × Memory :=
  let (root, s) := s.storeBlock block
  let (result, s) := s.addBlock root block
  (result.map fun _ => root, s)

/-- Let a block of the chain be justified and finalized. -/
def finalize (s : Memory) (root : Root) : Except BackendError Unit × Memory :=
  if s.entries.contains root then (.ok (), { s with justified := root, finalized := root })
  else (.error (.notFound "Block"), s)

end BeaconApi.Memory
