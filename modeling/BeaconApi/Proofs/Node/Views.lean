import BeaconApi.Proofs.Beacon.Forks
import BeaconApi.Proofs.Node.Held
import BeaconApi.Proofs.Node.Loopback

namespace BeaconApi

open Memory (backend Reads settled named)

/-- Something that a node shows of a block that a path names. -/
inductive BlockView
  | root
  | block
  | versioned
  | attestations
  | header
deriving DecidableEq

namespace BlockView

/-- The path of a view. -/
def pattern : BlockView → String
  | .root => "/eth/v1/beacon/blocks/:block_id/root"
  | .block => "/eth/v1/beacon/blocks/:block_id"
  | .versioned => "/eth/v2/beacon/blocks/:block_id"
  | .attestations => "/eth/v1/beacon/blocks/:block_id/attestations"
  | .header => "/eth/v1/beacon/headers/:block_id"

/-- What stands before the name of a block in the path of a view. -/
def lead : BlockView → String
  | .root | .block | .attestations => "/eth/v1/beacon/blocks/"
  | .versioned => "/eth/v2/beacon/blocks/"
  | .header => "/eth/v1/beacon/headers/"

/-- What stands behind the name. -/
def tail : BlockView → String
  | .root => "/root"
  | .attestations => "/attestations"
  | .block | .versioned | .header => ""

/-- The endpoint of a view. -/
def endpoint {m : Type → Type} [Monad m] : BlockView → Endpoint m
  | .root => Endpoint.blockRoot
  | .block => Endpoint.block
  | .versioned => Endpoint.blockWithVersion
  | .attestations => Endpoint.blockAttestations
  | .header => Endpoint.blockHeader

variable (view : BlockView) (version : String)

/-- Every view has a route of its own. -/
theorem route : Node.ReadRoute version view.pattern view.lead "block_id" view.tail view.endpoint := by
  cases view <;> exact ⟨by simp [Node.routes, pattern, endpoint], rfl, by decide, by decide⟩

end BlockView

/-- Something that a node shows of a state that a path names. -/
inductive StateView
  | root
  | finality
deriving DecidableEq

namespace StateView

/-- The path of a view. -/
def pattern : StateView → String
  | .root => "/eth/v1/beacon/states/:state_id/root"
  | .finality => "/eth/v1/beacon/states/:state_id/finality_checkpoints"

/-- What stands behind the name of a state in the path of a view. -/
def tail : StateView → String
  | .root => "/root"
  | .finality => "/finality_checkpoints"

/-- The endpoint of a view. -/
def endpoint {m : Type → Type} [Monad m] : StateView → Endpoint m
  | .root => Endpoint.stateRoot
  | .finality => Endpoint.finalityCheckpoints

/-- Every view has a route of its own. -/
theorem route (view : StateView) (version : String) :
    Node.ReadRoute version view.pattern "/eth/v1/beacon/states/" "state_id" view.tail view.endpoint := by
  cases view <;> exact ⟨by simp [Node.routes, pattern, endpoint], rfl, by decide, by decide⟩

end StateView

/-- What a text tells a node that looks for a block by it: nothing, the name of a block that is not
there, or the name of a block that is kept under a root. -/
inductive Sight
  | unreadable (reason : IdentifierError)
  | missing
  | shown (root : Root) (block : SignedBeaconBlock)

/-- The status code under which something is shown, or not. -/
def Sight.code : Sight → UInt16
  | .unreadable _ => 400
  | .missing => 404
  | .shown _ _ => 200

namespace Memory

/-- What a node sees in a text. -/
def Sees (s : Memory) (text : String) : Sight → Prop
  | .unreadable reason => BlockId.ofString text = .error reason
  | .missing => ∃ id, BlockId.ofString text = .ok id ∧ ((backend.lookupBlock id).run s).1 = none
  | .shown root block => ∃ id entry, BlockId.ofString text = .ok id ∧
      ((backend.lookupBlock id).run s).1 = some entry ∧ entry.blockRoot = root ∧
      s.blocks.get? root = some block

/-- The header of a block that is kept under a root. -/
def headerOf (s : Memory) (root : Root) (block : SignedBeaconBlock) : BeaconBlockHeaderAndInfo where
  root
  canonical := (s.canonicalAt? block.slot).any fun c => c.blockRoot = root
  header :=
    { message :=
        { slot := block.slot
          proposerIndex := block.proposerIndex
          parentRoot := block.parentRoot
          stateRoot := block.stateRoot
          bodyRoot := bodyRootOf root }
      signature := block.signature }

end Memory

/-- The entry repeats what the block says, and has the body root that is derived from its own root. -/
structure ChainEntry.Repeats (entry : ChainEntry) (block : SignedBeaconBlock) : Prop where
  slot : entry.slot = block.slot
  proposerIndex : entry.proposerIndex = block.proposerIndex
  parentRoot : entry.parentRoot = block.parentRoot
  stateRoot : entry.stateRoot = block.stateRoot
  bodyRoot : entry.bodyRoot = bodyRootOf entry.blockRoot

/-- Every entry repeats the block that is kept under its root. -/
theorem Memory.Chronicle.Stocked.exists_repeats {c : Memory.Chronicle} (h : c.Stocked)
    (hlinked : c.memory.Linked) {root : Root} {entry : ChainEntry}
    (hentry : c.memory.entry? root = some entry) :
    ∃ block, c.memory.blocks.get? entry.blockRoot = some block ∧ entry.Repeats block := by
  obtain rfl : entry.blockRoot = root := hlinked.filed hentry
  obtain ⟨block, hblock, hentry⟩ := h.entries hentry
  refine ⟨block, hblock, ?_⟩
  constructor <;> rw [hentry] <;> rfl

namespace BlockView

variable (view : BlockView) (s : Memory)

/-- The response that shows a block that is kept under a root. -/
def shows (kept : Root) (b : SignedBeaconBlock) : BlockView → PreparedResponse
  | .root => .okData (RootResponse.mk kept)
  | .block => .okData b
  | .versioned =>
    (PreparedResponse.ok b.versioned).withHeader "Eth-Consensus-Version" b.fork.display
  | .attestations => .okData b.attestations
  | .header => .okData (s.headerOf kept b)

/-- The response of a view to what a text tells the node. -/
def reply : Sight → PreparedResponse
  | .unreadable reason => .badInput ("bad block_id path param: " ++ reason.message)
  | .missing => .notFound "Block not found"
  | .shown kept b => view.shows s kept b

/-- What a view gives once the entry of the block has been found. -/
def ofEntry (entry : ChainEntry) : BlockView → Except PreparedResponse PreparedResponse
  | .root => .ok (.okData (RootResponse.mk entry.blockRoot))
  | .block => do return .okData (← s.load entry)
  | .versioned => do
    let block := (← s.load entry).versioned
    return (PreparedResponse.ok block).withHeader "Eth-Consensus-Version" block.version.display
  | .attestations => do return .okData (← s.load entry).attestations
  | .header => do return .okData (← s.header entry)

theorem endpoint_reads (r : IncomingRequest) :
    Reads (view.endpoint backend r) s (s.blockOf r >>= fun entry => view.ofEntry s entry) := by
  cases view with
  | root => exact s.blockRoot_reads r
  | block => exact s.block_reads r
  | versioned => exact s.blockWithVersion_reads r
  | attestations => exact s.blockAttestations_reads r
  | header => exact s.blockHeader_reads r

variable {s}

/-- A request asks for a view under a segment of its path. Its body does not matter unless it is too
large. `ne_nil` is there for the views without a `tail`: a path whose last segment is empty reaches no
endpoint. An empty segment before a `tail`, as in `blocks//root`, does reach one, with the empty text
for its `block_id`, and is refused there like any other text that cannot be read. -/
structure Asks (segment : String) (request : Http.Request) : Prop where
  ne_nil : segment.toList ≠ []
  slash : '/' ∉ segment.toList
  method : Router.methodFor? request.method = some .get
  path : (Http.Target.ofString request.target).path = view.lead ++ segment ++ view.tail
  size : request.body.size ≤ Router.maxBodySize

section Requests

variable {view} {segment : String} {request : Http.Request} (hasks : view.Asks segment request) (version : String)
include hasks

theorem Asks.reached : Router.reached? (Node.routes backend version) request =
    some (Node.route backend .get view.pattern view.endpoint, [("block_id", segment.toList)]) :=
  (view.route version).reached hasks.ne_nil hasks.slash hasks.method hasks.path

end Requests

end BlockView

namespace Memory

/-- A text tells a node one thing only. -/
theorem Sees.unique {s : Memory} {text : String} {sight other : Sight} (h : s.Sees text sight)
    (hother : s.Sees text other) : sight = other := by
  cases sight with
  | unreadable reason =>
    have hreason : BlockId.ofString text = .error reason := h
    cases other with
    | unreadable => exact congrArg Sight.unreadable (Except.error.inj (hreason.symm.trans hother))
    | missing =>
      obtain ⟨_, hid, _⟩ := hother
      cases hreason.symm.trans hid
    | shown =>
      obtain ⟨_, _, hid, _⟩ := hother
      cases hreason.symm.trans hid
  | missing =>
    obtain ⟨id, hid, hnone⟩ := h
    cases other with
    | unreadable => cases hid.symm.trans hother
    | missing => rfl
    | shown =>
      obtain ⟨_, _, hother, hentry, _⟩ := hother
      cases hid.symm.trans hother
      cases hnone.symm.trans hentry
  | shown =>
    obtain ⟨id, entry, hid, hentry, rfl, hblock⟩ := h
    cases other with
    | unreadable => cases hid.symm.trans hother
    | missing =>
      obtain ⟨_, hother, hnone⟩ := hother
      cases hid.symm.trans hother
      cases hentry.symm.trans hnone
    | shown =>
      obtain ⟨_, _, hother, hfound, rfl, hkept⟩ := hother
      cases hid.symm.trans hother
      cases hentry.symm.trans hfound
      cases hblock.symm.trans hkept
      rfl

namespace Chronicle

end Chronicle

end Memory

end BeaconApi
