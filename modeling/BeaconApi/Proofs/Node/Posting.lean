import BeaconApi.Proofs.Node.Loopback

namespace BeaconApi

open Memory (backend settled)

/-- A request posts its body to a path, whatever query stands behind the path. -/
structure Http.Request.Posts (request : Http.Request) (path : String) : Prop where
  method : request.method = "POST"
  path : (Http.Target.ofString request.target).path = path

theorem IsPath.posts {path : String} (h : IsPath path) (body : ByteArray) :
    Http.Request.Posts ⟨"POST", path, body⟩ path :=
  ⟨rfl, congrArg Http.Target.path (Http.Target.ofString_path h)⟩

namespace Memory

variable {α β : Type} {op : Operation α}

theorem run_perform_bind {f : α → StateM Memory β} (s : Memory) :
    (backend.perform op >>= f).run s = (f (s.step op).1).run (s.step op).2 :=
  rfl

theorem run_ask_bind {f : α → ExceptT PreparedResponse (StateM Memory) β} (s : Memory) :
    (backend.ask op >>= f).run.run s = (f (s.step op).1).run.run (s.step op).2 :=
  rfl

end Memory

section Body

variable {α β : Type} [Payload α] {r : IncomingRequest} {bytes : ByteArray} (hr : r.body = some bytes)
include hr

theorem readBody_of_body : (readBody r : Except PreparedResponse α) =
    (Body.decodeContents bytes).mapError fun e => .badInput e.message := by
  unfold readBody IncomingRequest.decodeBody
  rw [hr]

namespace Memory

variable {f : α → ExceptT PreparedResponse (StateM Memory) β} {s : Memory}

/-- A handler that begins with its body goes on with what the body holds. -/
theorem run_readBody_bind {x : α} (h : Body.decodeContents bytes = .ok x) :
    (liftM (readBody r : Except PreparedResponse α) >>= f : ExceptT _ (StateM Memory) β).run.run s =
      (f x).run.run s := by
  rw [readBody_of_body hr, h]
  rfl

/-- A handler that begins with its body refuses one that cannot be read. -/
theorem reads_readBody_bind {e : ApiError}
    (h : (Body.decodeContents bytes : Except ApiError α) = .error e) :
    Reads (liftM (readBody r : Except PreparedResponse α) >>= f) s (.error (.badInput e.message)) := by
  rw [readBody_of_body hr, h]
  rfl

end Memory

end Body

namespace Node

section Post

variable {version path : String} {endpoint : Endpoint (StateM Memory)} {request : Http.Request}
  (hroute : PlainRoute version .post path endpoint) (hposts : request.Posts path)
include hroute hposts

theorem PlainRoute.post_reached : Router.reached? (routes backend version) request =
    some (route backend .post path endpoint, []) :=
  hroute.reached hposts.path (by rw [hposts.method]; rfl)

/-- A request that posts to a plain route is answered with what its endpoint settles on. `hrun` quantifies over
all requests with this body, since the endpoint of a submission looks at nothing else, and `hsize` sets the 413
aside. -/
theorem PlainRoute.post_run {s s' : Memory} {outcome : Except PreparedResponse PreparedResponse}
    (hsize : request.body.size ≤ Router.maxBodySize)
    (hrun : ∀ r : IncomingRequest, r.body = some request.body →
      (endpoint backend r).run.run s = (outcome, s')) :
    (answer backend version request).run s = ((settled outcome).write.1, s') := by
  have hreceive := Router.receive_of_bindParams_eq_ok (Http.Target.ofString request.target).query
    request.body (rfl : Router.bindParams [] .empty = .ok .empty)
  rw [if_neg (Nat.not_lt.mpr hsize)] at hreceive
  refine answer_of_reached (hroute.post_reached hposts) ?_ (fun _ => rfl) hreceive (hrun _ rfl)
  rw [hposts.method]
  decide

/-- A body that is too large is refused without asking the handler, whatever is in it. -/
theorem PlainRoute.post_oversized (hsize : Router.maxBodySize < request.body.size) (s : Memory) :
    ∃ response, (answer backend version request).run s = (response, s) ∧ response.status = 413 := by
  have hreceive := Router.receive_of_bindParams_eq_ok (Http.Target.ofString request.target).query
    request.body (rfl : Router.bindParams [] .empty = .ok .empty)
  rw [if_pos hsize] at hreceive
  refine ⟨_, answer_of_rejected (hroute.post_reached hposts) ?_ hreceive, ?_⟩
  · rw [hposts.method]
    decide
  · exact PreparedResponse.write_status_of_isStatus (by decide : Http.isStatus 413 = true)

/-- A body that the handler cannot read is refused, and nothing changes. -/
theorem PlainRoute.post_unreadable {α : Type} [Payload α] {f : α → Reply (StateM Memory)}
    (hendpoint : ∀ r, endpoint backend r = liftM (readBody r : Except PreparedResponse α) >>= f)
    (hsize : request.body.size ≤ Router.maxBodySize) {e : ApiError}
    (h : (Body.decodeContents request.body : Except ApiError α) = .error e) (s : Memory) :
    (answer backend version request).run s = ((PreparedResponse.badInput e.message).write.1, s) := by
  have hreads (r : IncomingRequest) (hr : r.body = some request.body) :
      Memory.Reads (endpoint backend r) s (.error (.badInput e.message)) := by
    rw [hendpoint]
    exact Memory.reads_readBody_bind hr h
  exact hroute.post_run hposts hsize hreads

/-- A body is refused without a change, or it is small enough and the handler can read it. -/
theorem PlainRoute.post_cases {α : Type} [Payload α] {f : α → Reply (StateM Memory)}
    (hendpoint : ∀ r, endpoint backend r = liftM (readBody r : Except PreparedResponse α) >>= f)
    (s : Memory) :
    (∃ response, (answer backend version request).run s = (response, s) ∧ response.status ∈ [400, 413]) ∨
      request.body.size ≤ Router.maxBodySize ∧ ∃ x : α, Body.decodeContents request.body = .ok x := by
  by_cases hsize : request.body.size ≤ Router.maxBodySize
  · cases hbody : (Body.decodeContents request.body : Except ApiError α) with
    | error e =>
      refine .inl ⟨_, hroute.post_unreadable hposts hendpoint hsize hbody s, ?_⟩
      rw [PreparedResponse.write_status_of_isStatus (by decide : Http.isStatus 400 = true)]
      exact List.mem_cons_self
    | ok x => exact .inr ⟨hsize, x, rfl⟩
  · obtain ⟨response, hrun, hstatus⟩ := hroute.post_oversized hposts (Nat.not_le.mp hsize) s
    exact .inl ⟨response, hrun, by simp [hstatus]⟩

end Post

/-- What a client receives that posts a payload to a path without placeholders. -/
theorem PlainRoute.submit_run {version path : String} {endpoint : Endpoint (StateM Memory)}
    (hroute : PlainRoute version .post path endpoint) (address : String) {α : Type} [Payload α] {x : α}
    {s s' : Memory} {outcome : Except PreparedResponse PreparedResponse}
    (hsize : (Payload.encode x).toUTF8.size ≤ Router.maxBodySize)
    (hrun : ∀ r : IncomingRequest, r.body = some (Payload.encode x).toUTF8 →
      (endpoint backend r).run.run s = (outcome, s')) :
    ((direct version address).request (.post path x)).run s = ((settled outcome).received, s') := by
  refine direct_run address hroute.isPath (rfl : Query.encode .empty = .ok "") fun target htarget => ?_
  have hposts : Http.Request.Posts ⟨"POST", target, (Payload.encode x).toUTF8⟩ path :=
    ⟨rfl, congrArg Http.Target.path htarget⟩
  exact hroute.post_run hposts hsize hrun

end Node

end BeaconApi
