import BeaconApi.Node.Routes
import BeaconApi.Proofs.Memory.Lookup

namespace BeaconApi.Memory

variable {α β : Type}

/-- A step of a handler leaves the node as it is and has the given outcome. -/
def Reads (x : ExceptT PreparedResponse (StateM Memory) α) (s : Memory)
    (outcome : Except PreparedResponse α) : Prop :=
  x.run.run s = (outcome, s)

namespace Reads

variable {s : Memory}

theorem pure (a : α) : Reads (Pure.pure a) s (.ok a) := rfl

theorem throw (e : PreparedResponse) : Reads (α := α) (MonadExcept.throw e) s (.error e) := rfl

/-- What is computed from the request alone reads nothing. -/
theorem lift (outcome : Except PreparedResponse α) : Reads (liftM outcome) s outcome := rfl

theorem ofRun {x : StateM Memory α} {a : α} (h : x.run s = (a, s)) :
    Reads (ExceptT.lift x) s (.ok a) := by
  change (Except.ok (x.run s).1, (x.run s).2) = _
  rw [h]

theorem bind {x : ExceptT PreparedResponse (StateM Memory) α} {outcome : Except PreparedResponse α}
    {f : α → ExceptT PreparedResponse (StateM Memory) β} {g : α → Except PreparedResponse β}
    (hx : Reads x s outcome) (hf : ∀ a, outcome = .ok a → Reads (f a) s (g a)) :
    Reads (x >>= f) s (outcome >>= g) := by
  unfold Reads at *
  rw [ExceptT.run_bind, StateT.run_bind, hx]
  cases outcome with
  | error e => rfl
  | ok a => exact hf a rfl

/-- A step whose result is known hands it on. -/
theorem bind_ok {x : ExceptT PreparedResponse (StateM Memory) α} {a : α}
    {f : α → ExceptT PreparedResponse (StateM Memory) β} {outcome : Except PreparedResponse β}
    (hx : Reads x s (.ok a)) (hf : Reads (f a) s outcome) : Reads (x >>= f) s outcome := by
  unfold Reads at *
  rw [ExceptT.run_bind, StateT.run_bind, hx]
  exact hf

/-- Asking for an operation that leaves the node alone. -/
theorem ask_bind {op : Operation α} {a : α}
    {f : α → ExceptT PreparedResponse (StateM Memory) β} {outcome : Except PreparedResponse β}
    (hop : s.step op = (a, s)) (hf : Reads (f a) s outcome) :
    Reads (backend.ask op >>= f) s outcome :=
  bind_ok (ofRun hop) hf

theorem mapM {f : α → ExceptT PreparedResponse (StateM Memory) β} {g : α → Except PreparedResponse β}
    {items : List α} (hf : ∀ a ∈ items, Reads (f a) s (g a)) :
    Reads (items.mapM f) s (items.mapM g) := by
  induction items with
  | nil => exact pure []
  | cons item items ih =>
    rw [List.mapM_cons, List.mapM_cons]
    refine bind (hf item List.mem_cons_self) fun b _ => ?_
    exact bind (ih fun a ha => hf a (List.mem_cons_of_mem _ ha)) fun bs _ => pure (b :: bs)

end Reads

/-- The entry that an identifier names, unless there is none or the identifier could not be read. -/
def named {ι : Type} (missing : String) (id : Except PreparedResponse ι)
    (lookup : ι → Option ChainEntry) : Except PreparedResponse ChainEntry := do
  (lookup (← id)).elim (.error (.notFound missing)) .ok

section named

variable {ι : Type} {missing : String} {lookup : ι → Option ChainEntry} {id : ι}

theorem named_of_none (h : lookup id = none) :
    named missing (.ok id) lookup = .error (.notFound missing) := by
  change (lookup id).elim _ _ = _
  rw [h]
  rfl

theorem named_of_some {entry : ChainEntry} (h : lookup id = some entry) :
    named missing (.ok id) lookup = .ok entry := by
  change (lookup id).elim _ _ = _
  rw [h]
  rfl

/-- Looking up an identifier comes down to `named`, if asking leaves the state as it is (`hask`) and `next`
depends on the answer alone (`hnext`). -/
theorem named_reads {s : Memory} {id : Except PreparedResponse ι}
    {ask : ι → StateM Memory (Option ChainEntry)}
    {next : Option ChainEntry → ExceptT PreparedResponse (StateM Memory) ChainEntry}
    (hask : ∀ id, (ask id).run s = (lookup id, s))
    (hnext : ∀ found : Option ChainEntry,
      Reads (next found) s (found.elim (.error (.notFound missing)) .ok)) :
    Reads (liftM id >>= fun id => ExceptT.lift (ask id) >>= next) s (named missing id lookup) :=
  (Reads.lift id).bind fun id _ => (Reads.ofRun (hask id)).bind_ok (hnext (lookup id))

end named

/-- The entry of the block that a request names. -/
def blockOf (s : Memory) (r : IncomingRequest) : Except PreparedResponse ChainEntry :=
  named "Block not found" (pathParam r "block_id") s.blockAt?

/-- The entry of the state that a request names. -/
def stateOf (s : Memory) (r : IncomingRequest) : Except PreparedResponse ChainEntry :=
  named "State not found" (pathParam r "state_id") s.stateAt?

theorem lookupBlock_reads (s : Memory) (r : IncomingRequest) :
    Reads (Endpoint.lookupBlock backend r) s (s.blockOf r) := by
  refine named_reads (lookupBlock_run s) fun found => ?_
  cases found with
  | none => exact .throw _
  | some entry => exact .pure _

theorem lookupState_reads (s : Memory) (r : IncomingRequest) :
    Reads (Endpoint.lookupState backend r) s (s.stateOf r) := by
  refine named_reads (lookupState_run s) fun found => ?_
  cases found with
  | none => exact .throw _
  | some entry => exact .pure _

/-- The block of an entry. -/
def load (s : Memory) (entry : ChainEntry) : Except PreparedResponse SignedBeaconBlock :=
  match s.blocks.get? entry.blockRoot with
  | some block => .ok block
  | none => .error (.notFound "Block not found")

theorem loadBlock_reads (s : Memory) (entry : ChainEntry) :
    Reads (Endpoint.loadBlock backend entry) s (s.load entry) := by
  refine Reads.ask_bind rfl ?_
  unfold load
  cases s.blocks.get? entry.blockRoot with
  | none => exact .throw _
  | some block => exact .pure _

/-- The header of an entry with what the node knows about it. -/
def header (s : Memory) (entry : ChainEntry) :
    Except PreparedResponse BeaconBlockHeaderAndInfo := do
  let block ← s.load entry
  return {
    root := entry.blockRoot
    canonical := (s.canonicalAt? entry.slot).any fun c => c.blockRoot = entry.blockRoot
    header := block.signedHeader entry.bodyRoot }

theorem headerInfo_reads (s : Memory) (entry : ChainEntry) :
    Reads (Endpoint.headerInfo backend entry) s (s.header entry) :=
  (loadBlock_reads s entry).bind fun _ _ => Reads.ask_bind rfl (.pure _)

section Endpoints

variable (s : Memory) (r : IncomingRequest)

theorem genesis_reads : Reads (Endpoint.genesis backend r) s (.ok (.okData s.genesis)) :=
  Reads.ask_bind rfl (.pure _)

theorem blockRoot_reads :
    Reads (Endpoint.blockRoot backend r) s (do
      let entry ← s.blockOf r
      return .okData (RootResponse.mk entry.blockRoot)) :=
  (lookupBlock_reads s r).bind fun _ _ => .pure _

theorem block_reads :
    Reads (Endpoint.block backend r) s (do
      let entry ← s.blockOf r
      return .okData (← s.load entry)) :=
  (lookupBlock_reads s r).bind fun entry _ => (loadBlock_reads s entry).bind fun _ _ => .pure _

theorem blockWithVersion_reads :
    Reads (Endpoint.blockWithVersion backend r) s (do
      let entry ← s.blockOf r
      let block := (← s.load entry).versioned
      return (PreparedResponse.ok block).withHeader "Eth-Consensus-Version" block.version.display) :=
  (lookupBlock_reads s r).bind fun entry _ => (loadBlock_reads s entry).bind fun _ _ => .pure _

theorem blockAttestations_reads :
    Reads (Endpoint.blockAttestations backend r) s (do
      let entry ← s.blockOf r
      let block ← s.load entry
      return .okData block.attestations) :=
  (lookupBlock_reads s r).bind fun entry _ => (loadBlock_reads s entry).bind fun _ _ => .pure _

theorem blockHeader_reads :
    Reads (Endpoint.blockHeader backend r) s (do
      let entry ← s.blockOf r
      return .okData (← s.header entry)) :=
  (lookupBlock_reads s r).bind fun entry _ => (headerInfo_reads s entry).bind fun _ _ => .pure _

theorem blockHeaders_reads :
    Reads (Endpoint.blockHeaders backend r) s (do
      let slot : Option Slot ← queryParam r "slot"
      let parentRoot : Option Root ← queryParam r "parent_root"
      return .okData (← (s.search parentRoot slot).mapM s.header)) := by
  refine (Reads.lift _).bind fun slot _ => (Reads.lift _).bind fun parentRoot _ => ?_
  refine Reads.ask_bind rfl ?_
  exact (Reads.mapM fun entry _ => headerInfo_reads s entry).bind fun _ _ => .pure _

theorem stateRoot_reads :
    Reads (Endpoint.stateRoot backend r) s (do
      let entry ← s.stateOf r
      return .okData (RootResponse.mk entry.stateRoot)) :=
  (lookupState_reads s r).bind fun _ _ => .pure _

theorem finalityCheckpoints_reads :
    Reads (Endpoint.finalityCheckpoints backend r) s (do
      let _ ← s.stateOf r
      return .okData s.finality) :=
  (lookupState_reads s r).bind fun _ _ => Reads.ask_bind rfl (.pure _)

theorem poolAttestations_reads :
    Reads (Endpoint.poolAttestations backend r) s (do
      let slot : Option Slot ← queryParam r "slot"
      let index : Option CommitteeIndex ← queryParam r "committee_index"
      return .okData (s.attestationsOf slot index)) :=
  (Reads.lift _).bind fun _ _ => (Reads.lift _).bind fun _ _ => Reads.ask_bind rfl (.pure _)

theorem poolVoluntaryExits_reads :
    Reads (Endpoint.poolVoluntaryExits backend r) s (.ok (.okData s.voluntaryExits)) :=
  Reads.ask_bind rfl (.pure _)

theorem health_reads :
    Reads (Endpoint.health backend r) s (.ok (.ofCode (if s.syncing then 206 else 200))) :=
  Reads.ask_bind rfl (.pure _)

theorem version_reads (text : String) :
    Reads (Endpoint.version text backend r) s (.ok (.okData (NodeVersionResponse.mk text))) :=
  .pure _

theorem syncing_reads : Reads (Endpoint.syncing backend r) s (.ok (.okData s.syncStatus)) :=
  Reads.ask_bind rfl (.pure _)

/-- Break off if the node is syncing. -/
def synced : Except PreparedResponse Unit :=
  if s.syncing then .error (.syncing "beacon node is syncing") else .ok ()

theorem ensureSynced_reads : Reads (Endpoint.ensureSynced backend) s s.synced := by
  refine Reads.ask_bind rfl ?_
  change Reads (if s.syncing then throw _ else Pure.pure ()) s s.synced
  unfold synced
  by_cases hsyncing : s.syncing
  · rw [if_pos hsyncing, if_pos hsyncing]
    exact .throw _
  · rw [if_neg hsyncing, if_neg hsyncing]
    exact .pure _

/-- What comes of an operation that may fail: a payload, or the response to its error. -/
def reply {α : Type} (ok : α → PreparedResponse) :
    Except BackendError α → Except PreparedResponse PreparedResponse
  | .ok a => .ok (ok a)
  | .error e => .error e.toResponse

theorem produceBlock_reads :
    Reads (Endpoint.produceBlock backend r) s (do
      let slot : Slot ← pathParam r "slot"
      match (← queryParam r "randao_reveal" : Option BlsSignature) with
      | none => .error (.badInput "missing randao_reveal query param")
      | some randaoReveal =>
        let graffiti : Option Root ← queryParam r "graffiti"
        s.synced
        reply .okData (s.produceBlock slot randaoReveal (graffiti.getD .zero))) := by
  refine (Reads.lift _).bind fun slot _ => (Reads.lift _).bind fun randaoReveal? _ => ?_
  cases randaoReveal? with
  | none => exact .throw _
  | some randaoReveal =>
    refine (Reads.lift _).bind fun graffiti _ => (ensureSynced_reads s).bind fun _ _ => ?_
    refine Reads.ask_bind rfl ?_
    cases s.produceBlock slot randaoReveal (graffiti.getD .zero) with
    | ok block => exact .pure _
    | error e => exact .throw _

theorem proposerDuties_reads :
    Reads (Endpoint.proposerDuties backend r) s (do
      let epoch : Epoch ← pathParam r "epoch"
      s.synced
      reply .ok (s.proposerDuties epoch)) := by
  refine (Reads.lift _).bind fun epoch _ => (ensureSynced_reads s).bind fun _ _ => ?_
  refine Reads.ask_bind rfl ?_
  cases s.proposerDuties epoch with
  | ok duties => exact .pure _
  | error e => exact .throw _

end Endpoints

end BeaconApi.Memory
