import BeaconApi.Proofs.Node.Held
import BeaconApi.Proofs.Node.Loopback

namespace BeaconApi

open PreparedResponse

/-- A result is an error that tells of syncing, or of a wrong request, exactly if a status code does. -/
structure Mirrors {α : Type} (result : Except ApiError α) (code : UInt16) : Prop where
  syncing : (∃ status body, result = .error (.currentlySyncing status body)) ↔ code = 503
  invalid : (∃ status body, result = .error (.invalidRequest status body)) ↔ code = 400

namespace Mirrors

variable {α β : Type}

theorem ok {x : α} {code : UInt16} (h : code = 200 ∨ code = 404) : Mirrors (.ok x) code := by
  rcases h with rfl | rfl <;> constructor <;> simp

theorem currentlySyncing (body : ErrorBody) :
    Mirrors (.error (.currentlySyncing 503 body) : Except ApiError α) 503 := by
  constructor <;> simp

theorem invalidRequest (body : ErrorBody) :
    Mirrors (.error (.invalidRequest 400 body) : Except ApiError α) 400 := by
  constructor <;> simp

theorem map {result : Except ApiError α} {code : UInt16} (h : Mirrors result code) (f : α → β) :
    Mirrors (result.map f) code := by
  have herror (e : ApiError) : result.map f = .error e ↔ result = .error e := by
    cases result <;> simp [Except.map]
  constructor
  · simpa only [herror] using h.syncing
  · simpa only [herror] using h.invalid

end Mirrors

theorem map_data_map_mk {α : Type} (result : Except ApiError α) :
    (result.map Envelope.mk).map Envelope.data = result := by
  cases result <;> rfl

section Parameters

variable {α : Type} [Param α]

/-- A request has a text in its path that is read as the given value. -/
def Names (name : String) (x : α) (r : IncomingRequest) : Prop := pathParam r name = .ok x

/-- A request has a text in its query that is read as the given value, or none if there is no value. -/
def Asks (name : String) (x? : Option α) (r : IncomingRequest) : Prop := queryParam r name = .ok x?

theorem names_of_param {name text : String} {x : α} {r : IncomingRequest}
    (hr : r.param? name = some text) (htext : Param.ofText text = .ok x) : Names name x r :=
  (Memory.pathParam_eq_ok_iff hr).mpr htext

/-- A value that a client has written into a query under a name is asked for under the name. -/
theorem asks_of_encode {display : α → String} (hdisplay : ∀ x, Param.ofText (display x) = .ok x)
    {query : Query} {text name : String} {x? : Option α} {r : IncomingRequest}
    (hquery : query.encode = .ok text) (hr : r.queryValues = .group (Form.decode text))
    (hvalue : query.get? name = x?.map fun x => .text (display x)) : Asks name x? r := by
  unfold Asks queryParam
  rw [IncomingRequest.queryFirst?_of_encode hquery hr, hvalue]
  cases x? with
  | none => rfl
  | some x =>
    change (readParam name "query" (display x)).map some = _
    rw [readParam, hdisplay]
    rfl

/-- Each of two values that a client has written into a query, if there is one, is asked for under its
own name. -/
theorem asks_of_two {β : Type} [Param β] {displayFirst : α → String} {displaySecond : β → String}
    (hfirst : ∀ x, Param.ofText (displayFirst x) = .ok x) (hsecond : ∀ y, Param.ofText (displaySecond y) = .ok y)
    {first second : String} (hne : first ≠ second) {x? : Option α} {y? : Option β} {text : String}
    (hquery : Query.encode ((SortedMap.empty.insertSome first (x?.map fun x => .text (displayFirst x))).insertSome
      second (y?.map fun y => .text (displaySecond y))) = .ok text)
    {r : IncomingRequest} (hr : r.queryValues = .group (Form.decode text)) :
    Asks first x? r ∧ Asks second y? r := by
  refine ⟨asks_of_encode hfirst hquery hr ?_, asks_of_encode hsecond hquery hr ?_⟩
  · rw [SortedMap.get?_insertSome, if_neg hne, SortedMap.get?_insertSome, if_pos rfl]
    exact Option.or_none
  · rw [SortedMap.get?_insertSome, if_pos rfl, SortedMap.get?_insertSome, if_neg hne.symm]
    exact Option.or_none

end Parameters

namespace Memory

variable {α β : Type}

/-- In a state, a call of a client has a result, and the handler behind it answers every request that
carries the arguments of the call with a response that the result mirrors. Both leave the state as it
is. -/
structure Agrees (s : Memory) (call : StateM Memory (Except ApiError α))
    (endpoint : Endpoint (StateM Memory)) (carries : IncomingRequest → Prop)
    (result : Except ApiError α) : Prop where
  called : call.run s = (result, s)
  handled : ∀ r, carries r → ∃ response,
    (endpoint backend r).response.run s = (response, s) ∧ Mirrors result response.code

/-- What a client is told of something that a node computes only while it is not syncing. -/
def told (s : Memory) (result : Except BackendError α) : Except ApiError α :=
  if (s.computed .syncStatus).isSyncing then
    .error (.currentlySyncing 503 (.plain (.plain 503 "beacon node is syncing")))
  else
    result.mapError fun e => .invalidRequest 400 (.plain (.plain 400 e.message))

variable {s : Memory}

theorem told_of_syncing (h : s.syncing = true) {result : Except BackendError α} :
    s.told result = .error (.currentlySyncing 503 (.plain (.plain 503 "beacon node is syncing"))) :=
  if_pos h

theorem told_of_not_syncing (h : s.syncing = false) {result : Except BackendError α} :
    s.told result = result.mapError fun e => .invalidRequest 400 (.plain (.plain 400 e.message)) :=
  if_neg (by change ¬ s.syncing = true; simp [h])

variable {endpoint : Endpoint (StateM Memory)} {carries : IncomingRequest → Prop}

namespace Agrees

theorem map {call : StateM Memory (Except ApiError α)} {result : Except ApiError α}
    (h : s.Agrees call endpoint carries result) (f : α → β) :
    s.Agrees (do return (← call).map f) endpoint carries (result.map f) where
  called := by
    rw [StateT.run_bind, h.called]
    rfl
  handled r hr := by
    obtain ⟨response, hresponse, hmirrors⟩ := h.handled r hr
    exact ⟨response, hresponse, hmirrors.map f⟩

section Requests

variable [Payload α] {client : Client (StateM Memory)} {request : Request}
  {outcome : Except PreparedResponse PreparedResponse}
  (hrequest : (client.request request).run s = ((settled outcome).received, s))
  (hreads : ∀ r, carries r → Reads (endpoint backend r) s outcome)
include hrequest hreads

theorem fetch {result : Except ApiError α} (hresult : ((settled outcome).received.decode).map Prod.snd = result)
    (hmirrors : Mirrors result (settled outcome).code) :
    s.Agrees (client.fetch request) endpoint carries result where
  called := hresult ▸ Client.fetch_run hrequest
  handled r hr := ⟨_, response_run (hreads r hr), hmirrors⟩

theorem lookup {result : Except ApiError (Option α)} (hresult : Client.found (settled outcome).received = result)
    (hmirrors : Mirrors result (settled outcome).code) :
    s.Agrees (client.lookup request) endpoint carries result where
  called := hresult ▸ Client.lookup_run hrequest
  handled r hr := ⟨_, response_run (hreads r hr), hmirrors⟩

end Requests

section Success

variable [Payload α] {client : Client (StateM Memory)} {request : Request} {prepared : PreparedResponse}
  {x : α} (hrequest : (client.request request).run s = (prepared.received, s))
  (hreads : ∀ r, carries r → Reads (endpoint backend r) s (.ok prepared)) (h : prepared.Carries x)
include hrequest hreads h

theorem fetch_ok : s.Agrees (client.fetch request) endpoint carries (.ok x) := by
  refine fetch hrequest hreads ?_ (.ok (.inl h.code))
  rw [settled, h.decode_received]
  rfl

theorem lookup_ok : s.Agrees (client.lookup request) endpoint carries (.ok (some x)) :=
  lookup hrequest hreads (Client.found_of_carries h) (.ok (.inl h.code))

end Success

/-- A lookup of a client agrees with its endpoint where both come down to `named` and `next`. `hnext` says that
an entry that is found is always shown, so the result is `none` exactly if nothing is found. -/
theorem lookup_named [Payload α] {client : Client (StateM Memory)} {request : Request} {ι κ : Type}
    {missing : String} {id : ι} {find : ι → Option ChainEntry}
    {next : ChainEntry → Except PreparedResponse PreparedResponse}
    (hrequest : (client.request request).run s =
      ((settled (named missing (.ok id) find >>= next)).received, s))
    (hreads : ∀ r, carries r → Reads (endpoint backend r) s (named missing (.ok id) find >>= next))
    {found : Option κ} {entry : κ → ChainEntry} (hfound : find id = found.map entry)
    {view : κ → α} (hnext : ∀ x, ∃ p, next (entry x) = .ok p ∧ p.Carries (view x)) :
    s.Agrees (client.lookup request) endpoint carries (.ok (found.map view)) := by
  cases found with
  | none =>
    have houtcome : (named missing (.ok id) find >>= next) = .error (notFound missing) := by
      rw [named_of_none hfound]
      rfl
    rw [houtcome] at hrequest hreads
    exact lookup hrequest hreads (Client.found_notFound missing) (.ok (.inr rfl))
  | some x =>
    obtain ⟨p, hp, hcarries⟩ := hnext x
    have houtcome : (named missing (.ok id) find >>= next) = .ok p := by
      rw [named_of_some hfound]
      exact hp
    rw [houtcome] at hrequest hreads
    exact lookup_ok hrequest hreads hcarries

/-- What a node computes only while it is not syncing, and may find wrong. -/
theorem fetch_told [Payload α] {client : Client (StateM Memory)} {request : Request}
    {computed : Except BackendError β} {answer : β → PreparedResponse}
    (hrequest : (client.request request).run s =
      ((settled (s.synced >>= fun _ => reply answer computed)).received, s))
    (hreads : ∀ r, carries r → Reads (endpoint backend r) s (s.synced >>= fun _ => reply answer computed))
    (hinvalid : ∀ e, computed = .error e → ∃ reason, e = .invalid reason)
    {view : β → α} (hanswer : ∀ x, (answer x).Carries (view x)) :
    s.Agrees (client.fetch request) endpoint carries ((s.told computed).map view) := by
  cases hsyncing : s.syncing with
  | true =>
    have houtcome : (s.synced >>= fun _ => reply answer computed) =
        .error (PreparedResponse.syncing "beacon node is syncing") := by
      rw [synced, hsyncing]
      rfl
    rw [houtcome] at hrequest hreads
    rw [told_of_syncing hsyncing]
    refine fetch hrequest hreads ?_ (.currentlySyncing _)
    rw [settled, PreparedResponse.syncing, decode_received_error _ (by decide) (by decide)]
    rfl
  | false =>
    have hsynced : (s.synced >>= fun _ => reply answer computed) = reply answer computed := by
      rw [synced, hsyncing]
      rfl
    rw [hsynced] at hrequest hreads
    rw [told_of_not_syncing hsyncing]
    cases hcomputed : computed with
    | ok x =>
      rw [hcomputed] at hrequest hreads
      exact fetch_ok hrequest hreads (hanswer x)
    | error e =>
      obtain ⟨reason, rfl⟩ := hinvalid e hcomputed
      rw [hcomputed] at hrequest hreads
      refine fetch hrequest hreads ?_ (.invalidRequest _)
      change ((error 400 reason).received.decode).map Prod.snd = _
      rw [decode_received_error _ (by decide) (by decide)]
      rfl

end Agrees

end Memory

end BeaconApi
