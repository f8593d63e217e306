import BeaconApi.Proofs.Node.Views

namespace BeaconApi

namespace Memory

/-- All that the handlers of reads take from a node is the same as in another one. -/
structure TellsAlike (s' s : Memory) : Prop where
  genesis : s'.genesis = s.genesis
  views (view : BlockView) (r : IncomingRequest) :
    (s'.blockOf r >>= fun entry => view.ofEntry s' entry) = s.blockOf r >>= fun entry => view.ofEntry s entry
  headers (parentRoot : Option Root) (slot : Option Slot) :
    (s'.search parentRoot slot).mapM s'.header = (s.search parentRoot slot).mapM s.header
  stateRoots (id : StateId) : (s'.stateAt? id).map ChainEntry.stateRoot = (s.stateAt? id).map ChainEntry.stateRoot
  finality : s'.finality = s.finality
  attestations : s'.attestations = s.attestations
  voluntaryExits : s'.voluntaryExits = s.voluntaryExits
  syncStatus : s'.syncStatus = s.syncStatus
  produceBlock : s'.produceBlock = s.produceBlock
  proposerDuties : s'.proposerDuties = s.proposerDuties

/-- A node looks like another one with the same chain, whatever it keeps beside the blocks of the chain.
-/
structure LooksLike (s' s : Memory) : Prop where
  same : ∃ blocks syncCommitteeMessages published nextSequence,
    s' = { s with blocks, syncCommitteeMessages, published, nextSequence }
  blocks {root : Root} {entry : ChainEntry} : s.entry? root = some entry →
    s'.blocks.get? entry.blockRoot = s.blocks.get? entry.blockRoot

/-- A step of a handler leaves either of two nodes as it is and has one outcome in both. -/
def ReadsAlike {α : Type} (x : ExceptT PreparedResponse (StateM Memory) α) (s s' : Memory) : Prop :=
  ∃ outcome, Reads x s outcome ∧ Reads x s' outcome

section Congruence

variable {ι β : Type} {missing : String} {id : Except PreparedResponse ι} {lookup : ι → Option ChainEntry}

/-- What goes on from an entry that is looked up need agree only for the entries that there are. -/
theorem named_bind_congr {f g : ChainEntry → Except PreparedResponse β}
    (h : ∀ i entry, lookup i = some entry → f entry = g entry) :
    (named missing id lookup >>= f) = (named missing id lookup >>= g) := by
  cases id with
  | error refusal => rfl
  | ok i =>
    cases hentry : lookup i with
    | none => rw [named_of_none hentry]; rfl
    | some entry =>
      rw [named_of_some hentry]
      exact h i entry hentry

/-- What goes on from a part of an entry that is looked up needs no more of the entry than that part. -/
theorem named_bind_map {γ : Type} {lookup' : ι → Option ChainEntry} {part : ChainEntry → γ}
    (h : ∀ i, (lookup' i).map part = (lookup i).map part) (f : γ → Except PreparedResponse β) :
    (named missing id lookup' >>= fun entry => f (part entry)) =
      named missing id lookup >>= fun entry => f (part entry) := by
  cases id with
  | error refusal => rfl
  | ok i =>
    have hpart := h i
    cases hentry : lookup i with
    | none =>
      rw [hentry, Option.map_none, Option.map_eq_none_iff] at hpart
      rw [named_of_none hpart, named_of_none hentry]
    | some entry =>
      rw [hentry, Option.map_some, Option.map_eq_some_iff] at hpart
      obtain ⟨entry', hentry', hsame⟩ := hpart
      rw [named_of_some hentry', named_of_some hentry]
      exact congrArg f hsame

end Congruence

namespace LooksLike

variable {s s' : Memory} (h : s'.LooksLike s)
include h

theorem load_eq {entry : ChainEntry} (hknown : s.Known entry) : s'.load entry = s.load entry := by
  rw [load, load, h.blocks hknown]

theorem header_eq {entry : ChainEntry} (hknown : s.Known entry) : s'.header entry = s.header entry := by
  rw [header, header, h.load_eq hknown]
  obtain ⟨_, _, _, _, rfl⟩ := h.same
  rfl

theorem ofEntry_eq (view : BlockView) {entry : ChainEntry} (hknown : s.Known entry) :
    view.ofEntry s' entry = view.ofEntry s entry := by
  cases view with
  | root => rfl
  | block | versioned | attestations =>
    simp only [BlockView.ofEntry, h.load_eq hknown]
  | header => simp only [BlockView.ofEntry, h.header_eq hknown]

/-- Nodes that look alike tell the same, since the block behind every entry is the same. -/
theorem tellsAlike (hlinked : s.Linked) : s'.TellsAlike s := by
  have hviews (view : BlockView) (r : IncomingRequest) : (s'.blockOf r >>= fun entry => view.ofEntry s' entry) =
      s.blockOf r >>= fun entry => view.ofEntry s entry := by
    have hlookup : s'.blockAt? = s.blockAt? := by
      obtain ⟨_, _, _, _, rfl⟩ := h.same
      funext id
      cases id <;> rfl
    rw [blockOf, blockOf, hlookup]
    exact named_bind_congr fun id entry hentry => h.ofEntry_eq view (hlinked.known_of_blockAt? hentry)
  have hheaders (parentRoot : Option Root) (slot : Option Slot) :
      (s'.search parentRoot slot).mapM s'.header = (s.search parentRoot slot).mapM s.header := by
    have hsame : s'.search parentRoot slot = s.search parentRoot slot := by
      obtain ⟨_, _, _, _, rfl⟩ := h.same
      rfl
    rw [hsame]
    exact mapM_congr fun entry hentry => h.header_eq (hlinked.known_of_mem_search hentry)
  obtain ⟨_, _, _, _, rfl⟩ := h.same
  refine ⟨rfl, hviews, hheaders, fun id => ?_, rfl, rfl, rfl, rfl, rfl, rfl⟩
  cases id <;> rfl

end LooksLike

namespace TellsAlike

variable {s s' : Memory} {version : String} (h : s'.TellsAlike s)
include h

/-- Every route that is read reads alike in nodes that tell the same. -/
theorem routes_readAlike (version : String) :
    ∀ route ∈ Node.routes backend version, route.method = .get →
      ∃ endpoint : Endpoint (StateM Memory),
        (∀ r, route.handler r = some <$> (endpoint backend r).response) ∧
          ∀ r, ReadsAlike (endpoint backend r) s s' := by
  have hview (view : BlockView) (r : IncomingRequest) : ReadsAlike (view.endpoint backend r) s s' :=
    ⟨_, view.endpoint_reads s r, h.views view r ▸ view.endpoint_reads s' r⟩
  have hsyncing : s'.syncing = s.syncing := congrArg SyncingStatus.isSyncing h.syncStatus
  have hsynced : s'.synced = s.synced := by
    rw [synced, synced, hsyncing]
  have hstates (f : Root → PreparedResponse) (r : IncomingRequest) :
      (s'.stateOf r >>= fun entry => pure (f entry.stateRoot)) =
        s.stateOf r >>= fun entry => pure (f entry.stateRoot) :=
    named_bind_map h.stateRoots fun root => pure (f root)
  simp only [Node.routes, List.forall_mem_cons]
  refine ⟨fun _ => ?_, fun _ => ?_, fun _ => ?_, fun _ => ?_, fun _ => ?_, fun hpost => ?_, fun _ => ?_,
    fun _ => ?_, fun _ => ?_, fun _ => ?_, fun _ => ?_, fun hpost => ?_, fun _ => ?_, fun hpost => ?_,
    fun hpost => ?_, fun _ => ?_, fun _ => ?_, fun _ => ?_, fun _ => ?_, fun _ => ?_,
    fun _ hnone => absurd hnone List.not_mem_nil⟩
  · exact ⟨_, fun _ => rfl, fun r => ⟨_, genesis_reads s r, h.genesis ▸ genesis_reads s' r⟩⟩
  · exact ⟨_, fun _ => rfl, hview .root⟩
  · exact ⟨_, fun _ => rfl, hview .block⟩
  · exact ⟨_, fun _ => rfl, hview .versioned⟩
  · exact ⟨_, fun _ => rfl, hview .attestations⟩
  · cases hpost
  · refine ⟨_, fun _ => rfl, fun r => ⟨_, blockHeaders_reads s r, ?_⟩⟩
    have hreads := blockHeaders_reads s' r
    simp only [h.headers] at hreads
    exact hreads
  · exact ⟨_, fun _ => rfl, hview .header⟩
  · refine ⟨_, fun _ => rfl, fun r => ⟨_, stateRoot_reads s r, ?_⟩⟩
    exact hstates (fun root => .okData (RootResponse.mk root)) r ▸ stateRoot_reads s' r
  · refine ⟨_, fun _ => rfl, fun r => ⟨_, finalityCheckpoints_reads s r, ?_⟩⟩
    have hreads := finalityCheckpoints_reads s' r
    rw [h.finality] at hreads
    exact hstates (fun _ => .okData s.finality) r ▸ hreads
  · refine ⟨_, fun _ => rfl, fun r => ⟨_, poolAttestations_reads s r, ?_⟩⟩
    have hreads := poolAttestations_reads s' r
    simp only [attestationsOf, h.attestations] at hreads
    exact hreads
  · cases hpost
  · exact ⟨_, fun _ => rfl, fun r =>
      ⟨_, poolVoluntaryExits_reads s r, h.voluntaryExits ▸ poolVoluntaryExits_reads s' r⟩⟩
  · cases hpost
  · cases hpost
  · exact ⟨_, fun _ => rfl, fun r => ⟨_, health_reads s r, hsyncing ▸ health_reads s' r⟩⟩
  · exact ⟨_, fun _ => rfl, fun r => ⟨_, version_reads s r version, version_reads s' r version⟩⟩
  · exact ⟨_, fun _ => rfl, fun r => ⟨_, syncing_reads s r, h.syncStatus ▸ syncing_reads s' r⟩⟩
  · refine ⟨_, fun _ => rfl, fun r => ⟨_, produceBlock_reads s r, ?_⟩⟩
    have hreads := produceBlock_reads s' r
    simp only [hsynced, h.produceBlock] at hreads
    exact hreads
  · refine ⟨_, fun _ => rfl, fun r => ⟨_, proposerDuties_reads s r, ?_⟩⟩
    have hreads := proposerDuties_reads s' r
    simp only [hsynced, h.proposerDuties] at hreads
    exact hreads

/-- Nodes that tell the same answer every request but a post alike, and stay as they are. -/
theorem answer_same (version : String) {request : Http.Request} (hmethod : request.method ≠ "POST") :
    ∃ response, (Node.answer backend version request).run s = (response, s) ∧
      (Node.answer backend version request).run s' = (response, s') := by
  suffices hsent : ∃ sent, (Router.respond (Node.routes backend version) request).run s = (sent, s) ∧
      (Router.respond (Node.routes backend version) request).run s' = (sent, s') by
    obtain ⟨sent, hrespond, hrespond'⟩ := hsent
    exact ⟨_, answer_run hrespond, answer_run hrespond'⟩
  cases hreached : Router.reached? (Node.routes backend version) request with
  | none =>
    obtain ⟨sent, hrespond, _⟩ := Router.respond_of_not_reached hreached
    exact ⟨sent, by rw [hrespond]; rfl, by rw [hrespond]; rfl⟩
  | some found =>
    obtain ⟨route, captures⟩ := found
    obtain ⟨hroute, _, hfor⟩ := Router.reached?_eq_some hreached
    have hget : route.method = .get := by
      unfold Router.methodFor? at hfor
      rw [if_neg hmethod] at hfor
      split at hfor
      · exact (Option.some.inj hfor).symm
      · cases hfor
    obtain ⟨endpoint, hhandler, halike⟩ := h.routes_readAlike version route hroute hget
    cases hreceive : Router.receive captures (Http.Target.ofString request.target).query request.body with
    | error rejected =>
      exact ⟨_, Node.respond_of_rejected hreached hreceive, Node.respond_of_rejected hreached hreceive⟩
    | ok incoming =>
      obtain ⟨outcome, hreads, hreads'⟩ := halike incoming
      exact ⟨_, Node.respond_of_handled hreached hhandler hreceive hreads,
        Node.respond_of_handled hreached hhandler hreceive hreads'⟩

end TellsAlike

/-- Nodes that look alike answer every request but a post alike, and stay as they are. -/
theorem answer_alike {s s' : Memory} (h : s'.LooksLike s) (hlinked : s.Linked) (version : String)
    {request : Http.Request} (hmethod : request.method ≠ "POST") :
    ∃ response, (Node.answer backend version request).run s = (response, s) ∧
      (Node.answer backend version request).run s' = (response, s') :=
  (h.tellsAlike hlinked).answer_same version hmethod

end Memory

end BeaconApi
