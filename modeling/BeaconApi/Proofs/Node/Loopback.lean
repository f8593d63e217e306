import BeaconApi.Proofs.Beacon.Identifier
import BeaconApi.Proofs.Client.Received
import BeaconApi.Proofs.Node.Routes
import BeaconApi.Proofs.Request.Query
import BeaconApi.Proofs.Request.Target

namespace BeaconApi

open Memory (backend Reads settled)

/-- The URL of a request is the address with a target behind it that has the path and the query. -/
theorem Request.exists_url {r : Request} {text base : String} (hpath : IsPath r.path)
    (hquery : r.query.encode = .ok text) (hbase : dropTrailingSlashes base = base) :
    ∃ target, r.url base = .ok (base ++ target) ∧ Http.Target.ofString target = ⟨r.path, text⟩ := by
  have hresource : dropTrailingSlashes base ++ "/" ++ dropLeadingSlashes r.path = base ++ r.path := by
    rw [hbase, String.append_assoc, hpath.slash_append_dropLeadingSlashes]
  cases hempty : r.query.isEmpty with
  | true =>
    have hentries : r.query.entries = [] := List.isEmpty_iff.mp hempty
    have htext : text = "" := by
      rw [Query.encode, hentries] at hquery
      cases hquery
      rfl
    refine ⟨r.path, ?_, htext ▸ Http.Target.ofString_path hpath⟩
    rw [Request.url, hresource, hempty]
    rfl
  | false =>
    refine ⟨r.path ++ "?" ++ text, ?_, Http.Target.ofString_query hpath (Query.hash_not_mem hquery)⟩
    rw [Request.url, hresource, hempty, hquery, ← String.append_assoc, ← String.append_assoc]
    rfl

namespace Node

/-- The client of a node in memory that it reaches directly. -/
def direct (version address : String) : Client (StateM Memory) :=
  let client := HttpClient.ofAddress address
  client.connect (loopback backend version client.address)

variable {version path text : String} (address : String) {query : Query} {s s' : Memory}

/-- What a client receives for a request is what the node answers to it. -/
theorem direct_run {r : Request} {response : Http.Response} (hpath : IsPath r.path)
    (hquery : r.query.encode = .ok text)
    (hanswer : ∀ target, Http.Target.ofString target = ⟨r.path, text⟩ →
      (answer backend version ⟨r.method.name, target, ((r.body?.map Json.render).getD "").toUTF8⟩).run s =
        (response, s')) :
    ((direct version address).request r).run s = (.received response.status response.body, s') := by
  have hbase := dropTrailingSlashes_idem address
  obtain ⟨target, hurl, htarget⟩ := Request.exists_url hpath hquery hbase
  have hsend : ((loopback backend version (dropTrailingSlashes address)).send r.method
      (dropTrailingSlashes address ++ target) (r.body?.map Json.render)).run s =
        (.ok (response.status, response.body), s') := by
    change (do
      let response ← answer backend version ⟨r.method.name,
        targetOf (dropTrailingSlashes address) (dropTrailingSlashes address ++ target),
        ((r.body?.map Json.render).getD "").toUTF8⟩
      return .ok (response.status, response.body) : StateM Memory (Except String _)).run s = _
    rw [targetOf_append, StateT.run_bind, hanswer target htarget]
    rfl
  unfold direct HttpClient.connect HttpClient.ofAddress
  dsimp only
  rw [hurl]
  dsimp only
  rw [StateT.run_map]
  change (fun p => (HttpClient.outcome r.method p.1, p.2)) <$>
    ((loopback backend version (dropTrailingSlashes address)).send r.method
      (dropTrailingSlashes address ++ target) (r.body?.map Json.render)).run s = _
  rw [hsend]
  rfl

section Routed

variable {route : Route (StateM Memory)} {captures : List (String × List Char)} {request : Http.Request}
  (hreached : Router.reached? (routes backend version) request = some (route, captures))
include hreached

/-- What the handler of the route that a request reaches settles on is sent, whatever the method. -/
theorem respond_of_handled {endpoint : Endpoint (StateM Memory)} {incoming : IncomingRequest}
    {outcome : Except PreparedResponse PreparedResponse}
    (hhandler : ∀ r, route.handler r = some <$> (endpoint backend r).response)
    (hreceive : Router.receive captures (Http.Target.ofString request.target).query request.body =
      .ok incoming)
    (hrun : (endpoint backend incoming).run.run s = (outcome, s')) :
    (Router.respond (routes backend version) request).run s = ((settled outcome).write, s') := by
  rw [Router.respond_of_reached hreached]
  unfold Router.deliver
  simp only [hreceive, hhandler]
  rw [StateT.run_bind, StateT.run_map, Memory.response_run hrun]
  rfl

/-- A request that its route does not take is refused without asking the handler. -/
theorem respond_of_rejected {rejected : PreparedResponse}
    (hreceive : Router.receive captures (Http.Target.ofString request.target).query request.body =
      .error rejected) :
    (Router.respond (routes backend version) request).run s = (rejected.write, s) := by
  rw [Router.respond_of_reached hreached]
  unfold Router.deliver
  simp only [hreceive]
  rfl

/-- A node answers with what the handler of the route that a request reaches settles on. -/
theorem answer_of_reached {endpoint : Endpoint (StateM Memory)} {incoming : IncomingRequest}
    {outcome : Except PreparedResponse PreparedResponse} (hmethod : request.method ≠ "HEAD")
    (hhandler : ∀ r, route.handler r = some <$> (endpoint backend r).response)
    (hreceive : Router.receive captures (Http.Target.ofString request.target).query request.body =
      .ok incoming)
    (hrun : (endpoint backend incoming).run.run s = (outcome, s')) :
    (answer backend version request).run s = ((settled outcome).write.1, s') := by
  rw [Memory.answer_run (respond_of_handled hreached hhandler hreceive hrun), if_neg hmethod]

/-- A node answers a request that its route does not take without asking the handler. -/
theorem answer_of_rejected {rejected : PreparedResponse} (hmethod : request.method ≠ "HEAD")
    (hreceive : Router.receive captures (Http.Target.ofString request.target).query request.body =
      .error rejected) :
    (answer backend version request).run s = (rejected.write.1, s) := by
  rw [Memory.answer_run (respond_of_rejected hreached hreceive), if_neg hmethod]

end Routed

/-- A route whose path has no placeholders. -/
structure PlainRoute (version : String) (method : Method) (path : String)
    (endpoint : Endpoint (StateM Memory)) : Prop where
  mem : route backend method path endpoint ∈ routes backend version
  pieces : Pattern.ofString path = path.toList.map .character
  isPath : IsPath path

section Plain

variable {method : Method} {endpoint : Endpoint (StateM Memory)}

/-- A request for the path of such a route reaches it by its method. -/
theorem PlainRoute.reached (h : PlainRoute version method path endpoint) {request : Http.Request}
    (htarget : (Http.Target.ofString request.target).path = path)
    (hmethod : Router.methodFor? request.method = some method) :
    Router.reached? (routes backend version) request = some (route backend method path endpoint, []) := by
  have hcaptures : (Pattern.ofString path).captures? path.toList = some [] := by
    rw [h.pieces]
    exact Pattern.captures?_self path.toList
  refine Router.reached?_of_separate (routes_separate backend version) h.mem ?_ hmethod
  rw [htarget]
  exact hcaptures

/-- What a client receives for a read of such a path. -/
theorem PlainRoute.get_run {outcome : Except PreparedResponse PreparedResponse}
    (h : PlainRoute version .get path endpoint) (hquery : query.encode = .ok text)
    (hreads : ∀ incoming : IncomingRequest, incoming.queryValues = .group (Form.decode text) →
      Reads (endpoint backend incoming) s outcome) :
    ((direct version address).request ⟨.get, path, query⟩).run s = ((settled outcome).received, s) := by
  refine direct_run address h.isPath hquery fun target htarget => ?_
  have hreceive := Router.receive_of_bindParams_eq_ok (Http.Target.ofString target).query .empty
    (rfl : Router.bindParams [] .empty = .ok .empty)
  have hvalues := congrArg (SortedMap.group ∘ Form.decode ∘ Http.Target.query) htarget
  have hreached : Router.reached? (routes backend version) ⟨"GET", target, .empty⟩ =
      some (route backend .get path endpoint, []) := h.reached (congrArg Http.Target.path htarget) rfl
  exact answer_of_reached hreached (by simp) (fun _ => rfl) hreceive (hreads _ hvalues)

end Plain

end Node

/-- What stands for itself in a path is decoded as itself. -/
theorem IsSegment.decodeSegment? {s : String} (h : IsSegment s) : decodeSegment? s.toList = some s := by
  have hpercent : (0x25 : UInt8) ∉ Utf8.encode s := fun hmem =>
    h.percent (Utf8.mem_toList_of_mem_encode (c := '%') (by decide) hmem)
  rw [BeaconApi.decodeSegment?, String.ofList_toList, Percent.decode_of_not_mem hpercent,
    Utf8.decode?_encode]

namespace Node

variable {version text : String} (address : String) {query : Query} {s : Memory}

/-- A route for reads with one placeholder in its path, and what stands before and behind the
placeholder. -/
structure ReadRoute (version pattern lead name tail : String) (endpoint : Endpoint (StateM Memory)) :
    Prop where
  mem : route backend .get pattern endpoint ∈ routes backend version
  pieces : Pattern.ofString pattern =
    lead.toList.map .character ++ .placeholder name :: tail.toList.map .character
  isPath : IsPath lead
  ends : tail = "" ∨ IsPath tail

/-- A path with a segment in place of the placeholder reaches the route and captures the segment. `hslash` keeps
it one segment, and `hne` is needed for a route that ends in its placeholder. -/
theorem ReadRoute.reached {pattern lead name segment tail : String} {endpoint : Endpoint (StateM Memory)}
    (h : ReadRoute version pattern lead name tail endpoint) (hne : segment.toList ≠ [])
    (hslash : '/' ∉ segment.toList) {request : Http.Request}
    (hmethod : Router.methodFor? request.method = some .get)
    (htarget : (Http.Target.ofString request.target).path = lead ++ segment ++ tail) :
    Router.reached? (routes backend version) request =
      some (route backend .get pattern endpoint, [(name, segment.toList)]) := by
  have hcaptures : (Pattern.ofString pattern).captures? (lead ++ segment ++ tail).toList =
      some [(name, segment.toList)] := by
    rw [h.pieces, String.toList_append, String.toList_append, List.append_assoc]
    refine Pattern.captures?_segment hslash hne lead.toList ?_
    rcases h.ends with rfl | htail
    · exact .inl rfl
    · obtain ⟨c, rest, hslash, _⟩ := htail.slash
      exact .inr (hslash ▸ rfl)
  refine Router.reached?_of_separate (routes_separate backend version) h.mem ?_ hmethod
  rw [htarget]
  exact hcaptures

section Segment

variable {pattern lead name segment tail : String} {endpoint : Endpoint (StateM Memory)}
  {outcome : Except PreparedResponse PreparedResponse}
  (h : ReadRoute version pattern lead name tail endpoint) (hsegment : IsSegment segment)
include h hsegment

theorem ReadRoute.isPath_segment : IsPath (lead ++ segment ++ tail) := by
  have hlead : IsPath (lead ++ segment) := h.isPath.append hsegment.question hsegment.hash
  rcases h.ends with rfl | htail
  · rwa [String.append_empty]
  · exact hlead.append htail.question htail.hash

/-- What a node answers to such a read. -/
theorem ReadRoute.answer_run {target : String}
    (htarget : Http.Target.ofString target = ⟨lead ++ segment ++ tail, text⟩)
    (hreads : ∀ incoming : IncomingRequest, incoming.param? name = some segment →
      incoming.queryValues = .group (Form.decode text) → Reads (endpoint backend incoming) s outcome) :
    (answer backend version ⟨"GET", target, .empty⟩).run s = ((settled outcome).write.1, s) := by
  have hbind : Router.bindParams [(name, segment.toList)] .empty = .ok (.withParam .empty name segment) := by
    unfold Router.bindParams
    rw [hsegment.decodeSegment?]
    rfl
  have hparam : (IncomingRequest.withParam .empty name segment).param? name = some segment :=
    (SortedMap.get?_insert ..).trans (if_pos rfl)
  have hreceive := Router.receive_of_bindParams_eq_ok (Http.Target.ofString target).query .empty hbind
  have hvalues := congrArg (SortedMap.group ∘ Form.decode ∘ Http.Target.query) htarget
  have hreached : Router.reached? (routes backend version) ⟨"GET", target, .empty⟩ =
      some (route backend .get pattern endpoint, [(name, segment.toList)]) :=
    h.reached hsegment.ne_nil hsegment.slash rfl (congrArg Http.Target.path htarget)
  exact answer_of_reached hreached (by simp) (fun _ => rfl) hreceive (hreads _ hparam hvalues)

/-- What a client receives for such a read. -/
theorem ReadRoute.get_run (hquery : query.encode = .ok text)
    (hreads : ∀ incoming : IncomingRequest, incoming.param? name = some segment →
      incoming.queryValues = .group (Form.decode text) → Reads (endpoint backend incoming) s outcome) :
    ((direct version address).request ⟨.get, lead ++ segment ++ tail, query⟩).run s =
      ((settled outcome).received, s) :=
  direct_run address (h.isPath_segment hsegment) hquery fun _ htarget =>
    h.answer_run hsegment htarget hreads

end Segment

end Node

end BeaconApi
