import BeaconApi.Node.Endpoint.Basic

universe u

namespace BeaconApi.Endpoint

variable {m : Type → Type u} [Monad m]

/-- The entry of the block that the path names. -/
def lookupBlock (node : Backend m) (r : IncomingRequest) :
    ExceptT PreparedResponse m ChainEntry := do
  let id : BlockId ← pathParam r "block_id"
  match ← ExceptT.lift (node.lookupBlock id) with
  | some entry => return entry
  | none => throw (.notFound "Block not found")

/-- The entry of the state that the path names. -/
def lookupState (node : Backend m) (r : IncomingRequest) :
    ExceptT PreparedResponse m ChainEntry := do
  let id : StateId ← pathParam r "state_id"
  match ← ExceptT.lift (node.lookupState id) with
  | some entry => return entry
  | none => throw (.notFound "State not found")

/-- The block of an entry. -/
def loadBlock (node : Backend m) (entry : ChainEntry) :
    ExceptT PreparedResponse m SignedBeaconBlock := do
  match ← node.ask (.getBlock entry.blockRoot) with
  | .ok (some block) => return block
  | .ok none => throw (.notFound "Block not found")
  | .error e => throw (.internalError ("failed to load block: " ++ e.message))

/-- The header of an entry. A block is canonical if it is the canonical block of its slot. -/
def headerInfo (node : Backend m) (entry : ChainEntry) :
    ExceptT PreparedResponse m BeaconBlockHeaderAndInfo := do
  let block ← loadBlock node entry
  let canonical? ← node.ask (.canonicalAt entry.slot)
  return {
    root := entry.blockRoot
    canonical := canonical?.any fun c => c.blockRoot = entry.blockRoot
    header := block.signedHeader entry.bodyRoot }

/-- How the chain began. -/
def genesis : Endpoint m := fun node _ => do
  return .okData (← node.ask .genesis)

/-- The root of a block. -/
def blockRoot : Endpoint m := fun node r => do
  let entry ← lookupBlock node r
  return .okData (RootResponse.mk entry.blockRoot)

/-- A block. -/
def block : Endpoint m := fun node r => do
  let entry ← lookupBlock node r
  return .okData (← loadBlock node entry)

/-- A block with the name of its fork, which is repeated in a header. -/
def blockWithVersion : Endpoint m := fun node r => do
  let entry ← lookupBlock node r
  let block := (← loadBlock node entry).versioned
  return (PreparedResponse.ok block).withHeader "Eth-Consensus-Version" block.version.display

/-- The attestations in a block. -/
def blockAttestations : Endpoint m := fun node r => do
  let entry ← lookupBlock node r
  let block ← loadBlock node entry
  return .okData block.attestations

/-- Pass a block on and add it to the chain. The block is kept even when it is not passed on or
cannot be added. -/
def publishBlock : Endpoint m := fun node r => do
  let block : SignedBeaconBlock ← readBody r
  let published ← node.ask (.publish (.block block))
  match ← node.ask (.storeBlock block) with
  | .error e => throw (.internalError ("failed to store block: " ++ e.message))
  | .ok root =>
    let imported ← node.ask (.addBlock root block)
    match published, imported with
    | .error e, _ => throw (.internalError ("failed to publish block: " ++ e.message))
    | .ok true, _ =>
      throw (.syncing "beacon is syncing, added it to the chain, but cannot publish block")
    | .ok false, .ok () => return .okMessage "processed and published block"
    | .ok false, .error (.invalid reason) =>
      return .accepted ("block was broadcast but failed validation: " ++ reason)
    | .ok false, .error e => throw (.internalError ("failed to process block: " ++ e.message))

/-- The header of a block. -/
def blockHeader : Endpoint m := fun node r => do
  let entry ← lookupBlock node r
  return .okData (← headerInfo node entry)

/-- The headers of the blocks that the query asks for. -/
def blockHeaders : Endpoint m := fun node r => do
  let slot : Option Slot ← queryParam r "slot"
  let parentRoot : Option Root ← queryParam r "parent_root"
  let entries ← node.ask (.search parentRoot slot)
  return .okData (← entries.mapM (headerInfo node))

/-- The root of a state. -/
def stateRoot : Endpoint m := fun node r => do
  let entry ← lookupState node r
  return .okData (RootResponse.mk entry.stateRoot)

/-- The checkpoints of a state. -/
def finalityCheckpoints : Endpoint m := fun node r => do
  let entry ← lookupState node r
  return .okData (← node.ask (.finality entry))

end BeaconApi.Endpoint
