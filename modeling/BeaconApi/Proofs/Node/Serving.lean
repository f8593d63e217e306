import BeaconApi.Proofs.Node.Lookups
import BeaconApi.Proofs.Server.Sending

namespace BeaconApi.Memory

variable {c : Chronicle} {version : String} {route : Route (StateM Memory)}
  {captures : List (String × List Char)} {request : Http.Request}

theorem response_run {x : Reply (StateM Memory)} {s s' : Memory}
    {outcome : Except PreparedResponse PreparedResponse} (h : x.run.run s = (outcome, s')) :
    (Reply.response x).run s = (settled outcome, s') := by
  unfold Reply.response
  rw [StateT.run_bind, h]
  cases outcome <;> rfl

theorem settled_proper {outcome : Except PreparedResponse PreparedResponse}
    (h : Sound PreparedResponse.Proper outcome) : (settled outcome).Proper := by
  cases outcome with
  | ok response => exact h
  | error refusal => exact .inr h

/-- What a handler with one placeholder in its path, or none that names an entry, does in a node. -/
inductive Serves (c : Chronicle) (path : Pattern) (endpoint : Endpoint (StateM Memory)) : Prop
  | block (hnames : path.names = ["block_id"])
      (h : ∀ r, Locates (endpoint backend r) c.memory (BlockMissing c.memory r))
  | state (hnames : path.names = ["state_id"])
      (h : ∀ r, Locates (endpoint backend r) c.memory (StateMissing c.memory r))
  | other (hblock : "block_id" ∉ path.names) (hstate : "state_id" ∉ path.names)
      (h : ∀ r, Handles (endpoint backend r) c PreparedResponse.Proper)

theorem Serves.handles {path : Pattern} {endpoint : Endpoint (StateM Memory)}
    (h : Serves c path endpoint) (r : IncomingRequest) :
    Handles (endpoint backend r) c PreparedResponse.Proper := by
  cases h with
  | block _ hlocates => exact (hlocates r).handles
  | state _ hlocates => exact (hlocates r).handles
  | other _ _ hhandles => exact hhandles r

theorem routes_serve (h : c.Ready) (version : String) :
    ∀ route ∈ Node.routes backend version, ∃ endpoint : Endpoint (StateM Memory),
      (∀ r, route.handler r = some <$> (endpoint backend r).response) ∧
        Serves c route.path endpoint := by
  simp only [Node.routes, List.forall_mem_cons]
  refine ⟨?_, ?_, ?_, ?_, ?_, ?_, ?_, ?_, ?_, ?_, ?_, ?_, ?_, ?_, ?_, ?_, ?_, ?_, ?_, ?_,
    fun _ hnone => nomatch hnone⟩
  · exact ⟨_, fun _ => rfl, .other (by decide) (by decide) (genesis_handles c)⟩
  · exact ⟨_, fun _ => rfl, .block (by decide) (blockRoot_locates c.memory)⟩
  · exact ⟨_, fun _ => rfl, .block (by decide) (block_locates h)⟩
  · exact ⟨_, fun _ => rfl, .block (by decide) (blockWithVersion_locates h)⟩
  · exact ⟨_, fun _ => rfl, .block (by decide) (blockAttestations_locates h)⟩
  · exact ⟨_, fun _ => rfl, .other (by decide) (by decide) (publishBlock_handles c)⟩
  · exact ⟨_, fun _ => rfl, .other (by decide) (by decide) (blockHeaders_handles h)⟩
  · exact ⟨_, fun _ => rfl, .block (by decide) (blockHeader_locates h)⟩
  · exact ⟨_, fun _ => rfl, .state (by decide) (stateRoot_locates c.memory)⟩
  · exact ⟨_, fun _ => rfl, .state (by decide) (finalityCheckpoints_locates c.memory)⟩
  · exact ⟨_, fun _ => rfl, .other (by decide) (by decide) (poolAttestations_handles c)⟩
  · exact ⟨_, fun _ => rfl, .other (by decide) (by decide) (publishAttestations_handles c)⟩
  · exact ⟨_, fun _ => rfl, .other (by decide) (by decide) (poolVoluntaryExits_handles c)⟩
  · exact ⟨_, fun _ => rfl, .other (by decide) (by decide) (publishVoluntaryExit_handles c)⟩
  · exact ⟨_, fun _ => rfl, .other (by decide) (by decide) (publishSyncCommitteeMessages_handles c)⟩
  · exact ⟨_, fun _ => rfl, .other (by decide) (by decide) (health_handles c)⟩
  · have hnames : (Pattern.ofString "/eth/v1/node/version").names = [] := by decide
    refine ⟨_, fun _ => rfl, .other ?_ ?_ fun r => version_handles c r version⟩
    · exact hnames ▸ List.not_mem_nil
    · exact hnames ▸ List.not_mem_nil
  · exact ⟨_, fun _ => rfl, .other (by decide) (by decide) (syncing_handles c)⟩
  · exact ⟨_, fun _ => rfl, .other (by decide) (by decide) (produceBlock_handles h)⟩
  · exact ⟨_, fun _ => rfl, .other (by decide) (by decide) (proposerDuties_handles c)⟩

/-- Handling a request that reaches a route is a run, and what is sent is proper. -/
theorem deliver_run (h : c.Ready) (hroute : route ∈ Node.routes backend version) :
    ∃ sent c', c.Steps c' ∧
      (Router.deliver route.handler captures request).run c.memory = (sent, c'.memory) ∧ sent.1.Proper := by
  obtain ⟨endpoint, hhandler, hserves⟩ := routes_serve h version route hroute
  unfold Router.deliver
  cases hreceive : Router.receive captures (Http.Target.ofString request.target).query request.body with
  | error rejected =>
    obtain ⟨code, message, rfl, hcode⟩ := Router.receive_error hreceive
    have hrange : ∀ code ∈ [400, 413], Http.isStatus code ∧ code ∈ [400, 404, 405, 413, 503] := by
      simp [Http.isStatus]
    obtain ⟨hstatus, hexplains⟩ := PreparedResponse.write_error code message (hrange _ hcode).1
    refine ⟨_, c, .refl, rfl, .inr ⟨?_, _, hexplains⟩⟩
    rw [hstatus]
    exact (hrange _ hcode).2
  | ok incoming =>
    obtain ⟨outcome, c', hsteps, hrun, hsound⟩ := hserves.handles incoming
    refine ⟨_, c', hsteps, ?_, (PreparedResponse.write_proper (settled_proper hsound)).2⟩
    simp only [hhandler]
    rw [StateT.run_bind, StateT.run_map, response_run hrun]
    rfl

/-- Where a handler finds something under a name, or nothing, the status of what is sent says so. -/
theorem deliver_located {endpoint : Endpoint (StateM Memory)} {incoming : IncomingRequest}
    {missing : Prop} {sent : Http.Response × List ApiError} {s : Memory}
    (hhandler : route.handler incoming = some <$> (endpoint backend incoming).response)
    (hlocates : Locates (endpoint backend incoming) c.memory missing)
    (hreceive : Router.receive captures (Http.Target.ofString request.target).query request.body =
      .ok incoming)
    (hrun : (Router.deliver route.handler captures request).run c.memory = (sent, s)) :
    sent.1.status = 404 ↔ missing := by
  obtain ⟨outcome, hreads, hsound, hmissing⟩ := hlocates
  unfold Router.deliver at hrun
  simp only [hreceive, hhandler] at hrun
  rw [StateT.run_bind, StateT.run_map, response_run hreads] at hrun
  obtain rfl : (settled outcome).write = sent := congrArg Prod.fst hrun
  rw [(PreparedResponse.write_proper (settled_proper hsound)).1]
  exact hmissing

theorem eq_single_of_mem {name key : String} {segment : List Char}
    (hnames : captures.map Prod.fst = [name]) (hmem : (key, segment) ∈ captures) :
    key = name ∧ captures = [(name, segment)] := by
  obtain ⟨capture, rfl, rfl⟩ := List.map_eq_singleton_iff.mp hnames
  obtain rfl := List.mem_singleton.mp hmem
  exact ⟨rfl, rfl⟩

theorem pathParam_of_param? {ι : Type} [Param ι] {r : IncomingRequest} {name text : String}
    (h : r.param? name = some text) :
    (pathParam r name : Except PreparedResponse ι) = readParam name "path" text := by
  unfold pathParam IncomingRequest.requiredParam
  rw [h]
  rfl

theorem pathParam_eq_ok_iff {ι : Type} [Param ι] {r : IncomingRequest} {name text : String} {id : ι}
    (h : r.param? name = some text) :
    (pathParam r name : Except PreparedResponse ι) = .ok id ↔ Param.ofText text = .ok id := by
  rw [pathParam_of_param? h, readParam, mapError_eq_ok_iff]

/-- A route with one placeholder answers 404 exactly if its identifier can be read and `lookup` gives `none`.
`hlocates` says so for the endpoint; that the segment may be no UTF-8 and the body too large is added here. -/
theorem deliver_missing_iff {ι : Type} [Param ι] {endpoint : Endpoint (StateM Memory)} {name : String}
    {segment : List Char} {lookup : ι → Option ChainEntry} {sent : Http.Response × List ApiError}
    {s : Memory}
    (hhandler : ∀ r, route.handler r = some <$> (endpoint backend r).response)
    (hlocates : ∀ r, Locates (endpoint backend r) c.memory
      (∃ id, (pathParam r name : Except PreparedResponse ι) = .ok id ∧ lookup id = none))
    (hsize : request.body.size ≤ Router.maxBodySize)
    (hrun : (Router.deliver route.handler [(name, segment)] request).run c.memory = (sent, s)) :
    sent.1.status = 404 ↔ ∃ text id, decodeSegment? segment = some text ∧
      (Param.ofText text : Except String ι) = .ok id ∧ lookup id = none := by
  cases hdecode : decodeSegment? segment with
  | none =>
    have hreceive := Router.receive_of_decodeSegment?_eq_none name
      (Http.Target.ofString request.target).query request.body hdecode
    unfold Router.deliver at hrun
    simp only [hreceive] at hrun
    obtain rfl : (PreparedResponse.error 400 _).write = sent := congrArg Prod.fst hrun
    constructor
    · intro hcode
      rw [(PreparedResponse.write_error 400 _ (by decide)).1] at hcode
      exact absurd hcode (by decide)
    · rintro ⟨text, _, hsome, _⟩
      cases hsome
  | some text =>
    obtain ⟨incoming, hreceive, hparam⟩ := Router.receive_of_decodeSegment?_eq_some name
      (Http.Target.ofString request.target).query hdecode hsize
    rw [deliver_located (hhandler incoming) (hlocates incoming) hreceive hrun]
    constructor
    · rintro ⟨id, hid, hnone⟩
      exact ⟨text, id, rfl, (pathParam_eq_ok_iff hparam).mp hid, hnone⟩
    · rintro ⟨_, id, hsome, hid, hnone⟩
      cases hsome
      exact ⟨id, (pathParam_eq_ok_iff hparam).mpr hid, hnone⟩

/-- Answering a request is a run, and what is sent is proper before the body is left out. -/
theorem respond_run (h : c.Ready) (version : String) (request : Http.Request) :
    ∃ sent c', c.Steps c' ∧
      (Router.respond (Node.routes backend version) request).run c.memory = (sent, c'.memory) ∧
        sent.1.Proper := by
  cases hreached : Router.reached? (Node.routes backend version) request with
  | none =>
    obtain ⟨sent, hrespond, hstatus, hexplains⟩ := Router.respond_of_not_reached hreached
    have hmore : ∀ code ∈ [404, 405], code ∈ ([400, 404, 405, 413, 503] : List UInt16) := by simp
    exact ⟨sent, c, .refl, by rw [hrespond]; rfl, .inr ⟨hmore _ hstatus, hexplains⟩⟩
  | some found =>
    obtain ⟨route, captures⟩ := found
    rw [Router.respond_of_reached hreached]
    exact deliver_run h (Router.reached?_eq_some hreached).1

theorem answer_run {sent : Http.Response × List ApiError} {s s' : Memory}
    (h : (Router.respond (Node.routes backend version) request).run s = (sent, s')) :
    (Node.answer backend version request).run s =
      (if request.method = "HEAD" then { sent.1 with body := .empty } else sent.1, s') := by
  unfold Node.answer Router.answer Router.send
  rw [StateT.run_map, StateT.run_bind, h]
  obtain ⟨response, failures⟩ := sent
  by_cases hhead : request.method = "HEAD"
  · simp only [hhead, if_true]
    rfl
  · simp only [hhead, if_false]
    rfl

theorem answer_status {sent : Http.Response × List ApiError} (method : String) :
    (if method = "HEAD" then { sent.1 with body := .empty } else sent.1 : Http.Response).status =
      sent.1.status := by
  split <;> rfl

/-- At a `Ready` chronicle a reached route with a `block_id` or `state_id` answers 404 exactly if the identifier
can be read and its lookup gives `none`. `hsize` sets the 413 aside, which comes before the lookup. -/
theorem status_eq_404_iff (h : c.Ready) {sent : Http.Response × List ApiError} {s : Memory}
    (hreached : Router.reached? (Node.routes backend version) request = some (route, captures))
    (hsize : request.body.size ≤ Router.maxBodySize)
    (hrun : (Router.respond (Node.routes backend version) request).run c.memory = (sent, s)) :
    (∀ segment, ("block_id", segment) ∈ captures → (sent.1.status = 404 ↔
      ∃ text id, decodeSegment? segment = some text ∧ BlockId.ofString text = .ok id ∧
        c.memory.blockAt? id = none)) ∧
    ∀ segment, ("state_id", segment) ∈ captures → (sent.1.status = 404 ↔
      ∃ text id, decodeSegment? segment = some text ∧ StateId.ofString text = .ok id ∧
        c.memory.stateAt? id = none) := by
  obtain ⟨hroute, hcaptures, _⟩ := Router.reached?_eq_some hreached
  have hnames := Pattern.map_fst_captures? hcaptures
  rw [Router.respond_of_reached hreached] at hrun
  have hblockId (text : String) (id : BlockId) :
      (Param.ofText text : Except String BlockId) = .ok id ↔ BlockId.ofString text = .ok id :=
    mapError_eq_ok_iff
  have hstateId (text : String) (id : StateId) :
      (Param.ofText text : Except String StateId) = .ok id ↔ StateId.ofString text = .ok id :=
    mapError_eq_ok_iff
  have hkey {key : String} {segment : List Char} (hmem : (key, segment) ∈ captures) :
      key ∈ route.path.names := hnames ▸ List.mem_map.mpr ⟨_, hmem, rfl⟩
  -- A capture has the name of a placeholder of the route, so the kind of the route decides which name
  -- it can have.
  obtain ⟨endpoint, hhandler, hserves⟩ := routes_serve h version route hroute
  cases hserves with
  | block hblock hlocates =>
    rw [hblock] at hnames
    refine ⟨fun segment hmem => ?_, fun segment hmem => ?_⟩
    · obtain ⟨_, rfl⟩ := eq_single_of_mem hnames hmem
      simp only [deliver_missing_iff hhandler hlocates hsize hrun, hblockId]
    · exact absurd (eq_single_of_mem hnames hmem).1 (by decide)
  | state hstate hlocates =>
    rw [hstate] at hnames
    refine ⟨fun segment hmem => ?_, fun segment hmem => ?_⟩
    · exact absurd (eq_single_of_mem hnames hmem).1 (by decide)
    · obtain ⟨_, rfl⟩ := eq_single_of_mem hnames hmem
      simp only [deliver_missing_iff hhandler hlocates hsize hrun, hstateId]
  | other hblock hstate _ =>
    exact ⟨fun _ hmem => absurd (hkey hmem) hblock, fun _ hmem => absurd (hkey hmem) hstate⟩

namespace Chronicle

theorem Reachable.ready {genesisTime : Timestamp} {c : Chronicle} (h : Reachable genesisTime c) :
    c.Ready :=
  ⟨h.linked, h.backed⟩

/-- At a `Reachable` chronicle `Node.answer` gives every request one of the listed statuses, and 500 is none of
them. The handlers answer 500 for a head without an entry or an entry without a block, and the first two
conjuncts exclude both. A 404 means that the lookup found nothing; only this asks for a body within
`Router.maxBodySize`, since 413 comes first. Fewer than `capacity` kept blocks are needed for the value of
`nextSequence` alone. -/
theorem answer_never_internal {genesisTime : Timestamp} {c : Chronicle} (h : Reachable genesisTime c)
    (version : String) (request : Http.Request) :
    (∃ head, c.memory.head? = some head) ∧
    (∀ root entry, c.memory.entry? root = some entry →
      ∃ block, c.memory.blocks.get? entry.blockRoot = some block) ∧
    ∃ response c', (Node.answer backend version request).run c.memory = (response, c'.memory) ∧
      c.Steps c' ∧
      (c'.stored.length < capacity → c'.memory.nextSequence.toNat = c'.stored.length + 1) ∧
      response.status ∈ [200, 202, 206, 400, 404, 405, 413, 503] ∧
      ∀ route captures,
        Router.reached? (Node.routes backend version) request = some (route, captures) →
        request.body.size ≤ Router.maxBodySize →
        (∀ segment, ("block_id", segment) ∈ captures → (response.status = 404 ↔
          ∃ text id, decodeSegment? segment = some text ∧ BlockId.ofString text = .ok id ∧
            ((backend.lookupBlock id).run c.memory).1 = none)) ∧
        ∀ segment, ("state_id", segment) ∈ captures → (response.status = 404 ↔
          ∃ text id, decodeSegment? segment = some text ∧ StateId.ofString text = .ok id ∧
            ((backend.lookupState id).run c.memory).1 = none) := by
  have hready := h.ready
  obtain ⟨sent, c', hsteps, hrun, hproper⟩ := respond_run hready version request
  refine ⟨hready.linked.head, ?_, _, c', answer_run hrun, hsteps, ?_, ?_, ?_⟩
  · intro root entry hentry
    exact hready.backed.entries (hready.linked.known hentry)
  · exact fun hroom => (Reachable.stocked (h.trans hsteps) hroom).sequence
  · rw [answer_status]
    rcases hproper with hsuccess | ⟨hrefusal, _⟩
    · exact List.mem_append_left [400, 404, 405, 413, 503] hsuccess
    · exact List.mem_append_right [200, 202, 206] hrefusal
  · intro route captures hreached hsize
    rw [answer_status]
    simp only [lookupBlock_run, lookupState_run]
    exact status_eq_404_iff hready hreached hsize hrun

/-- A request for a block at a slot that the forked chain has none at. -/
def missingBlock : Http.Request := ⟨"GET", "/eth/v1/beacon/blocks/7/root", .empty⟩

theorem reached_missingBlock :
    Router.reached? (Node.routes backend "") missingBlock =
      some (Node.route backend .get "/eth/v1/beacon/blocks/:block_id/root" Endpoint.blockRoot,
        [("block_id", ['7'])]) := by
  rfl

theorem forked_answers_missing :
    ((Node.answer backend "" missingBlock).run forked.memory).1.status = 404 := by
  obtain ⟨_, _, response, _, hrun, _, _, _, hmissing⟩ :=
    answer_never_internal reachable_forked "" missingBlock
  obtain ⟨hblock, _⟩ := hmissing _ _ reached_missingBlock (by decide)
  rw [hrun]
  exact (hblock _ List.mem_cons_self).mpr
    ⟨"7", .slot ⟨7⟩, by decide, by rfl, by decide +kernel⟩

end Chronicle

end BeaconApi.Memory
