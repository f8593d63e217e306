import BeaconApi.Proofs.Server.Lookup
import BeaconApi.Proofs.Server.Sending

universe u

namespace BeaconApi.Router

/-- What is sent when a handler is done, or has broken down. -/
def concluded : Option PreparedResponse → Http.Response × List ApiError
  | some prepared => prepared.write
  | none => (PreparedResponse.internalError "internal error while handling request").write

/-- What is sent in return to a request with the named method. -/
def trimmed (method : String) (sent : Http.Response × List ApiError) : Http.Response × List ApiError :=
  if method = "HEAD" then ({ sent.1 with body := .empty }, sent.2) else sent

/-- What is sent, apart from the headers. -/
def withoutHeaders (sent : Http.Response × List ApiError) : UInt16 × ByteArray × List ApiError :=
  (sent.1.status, sent.1.body, sent.2)

theorem withoutHeaders_trimmed (method : String) (response : Http.Response) (headers : SortedMap String)
    (failures : List ApiError) :
    withoutHeaders (trimmed method ({ response with headers := headers }, failures)) =
      withoutHeaders (trimmed method (response, failures)) := by
  unfold trimmed
  split <;> rfl

variable {m : Type → Type u} [Monad m] {routes : List (Route m)} {table : RoutingTable m} {request : Http.Request}

theorem answer_eq_map [LawfulMonad m] (routes : List (Route m)) (request : Http.Request) :
    answer routes request = trimmed request.method <$> respond routes request := by
  unfold answer send trimmed
  rw [map_eq_pure_bind]
  refine bind_congr fun (response, failures) => ?_
  by_cases hhead : request.method = "HEAD"
  · simp only [if_pos hhead]
  · simp only [if_neg hhead]

/-- A request is handled: the handler of a route runs with what it receives, and what it has prepared is
sent. -/
def Handles (table : RoutingTable m) (request : Http.Request) (route : Route m)
    (captures : List (String × List Char)) : Prop :=
  ∃ incoming, table.invoked? request = some (route.handler, incoming) ∧
    Receives captures (Http.Target.ofString request.target).query request.body incoming ∧
    table.answer request =
      (fun prepared => trimmed request.method (concluded prepared)) <$> route.handler incoming

/-- A request is rejected with an error body, and no handler runs for it. -/
def Rejects (table : RoutingTable m) (request : Http.Request) (code : UInt16) (message : String) : Prop :=
  table.invoked? request = none ∧ ∃ sent, table.answer request = pure (trimmed request.method sent) ∧
    sent.1.status = code ∧ sent.1.Explains (.plain (.plain (UInt64.ofNat code.toNat) message))

/-- What a request that reaches no route is told. -/
def refusal (reason : String) (request : Http.Request) : String :=
  reason ++ ": " ++ request.method ++ " " ++ (Http.Target.ofString request.target).path

variable [LawfulMonad m] (h : table.Serves routes)
include h

section Reached

variable {route : Route m} {captures : List (String × List Char)}
  (hreached : reached? routes request = some (route, captures))
include hreached

omit [Monad m] [LawfulMonad m] in
theorem invoked?_of_reached : table.invoked? request =
    (receive captures (Http.Target.ofString request.target).query request.body).toOption.map
      (route.handler, ·) := by
  rw [h.invoked?_eq, hreached]
  rfl

/-- The handler of a route runs for a request that reaches it if all captures can be decoded. -/
theorem handles_of_decodes (hsize : request.body.size ≤ maxBodySize) (hnames : (captures.map Prod.fst).Nodup)
    (hdecodes : ∀ capture ∈ captures, (decodeSegment? capture.2).isSome) :
    Handles table request route captures := by
  obtain ⟨incoming, hreceive, hreceives⟩ :=
    receives_of_decodes hnames hdecodes (Http.Target.ofString request.target).query hsize
  refine ⟨incoming, ?_, hreceives, ?_⟩
  · rw [invoked?_of_reached h hreached, hreceive]
    rfl
  · rw [h.answer_eq, answer_eq_map, respond_of_reached hreached, deliver, hreceive]
    simp only [map_bind]
    rw [map_eq_pure_bind]
    refine bind_congr fun prepared => ?_
    cases prepared <;> exact map_pure ..

/-- A request is rejected by the route that it reaches if a capture cannot be decoded. -/
theorem rejects_of_undecoded (hundecoded : ∃ capture ∈ captures, decodeSegment? capture.2 = none) :
    ∃ capture ∈ captures, decodeSegment? capture.2 = none ∧
      Rejects table request 400 ("Invalid UTF-8 in `" ++ capture.1 ++ "`") := by
  obtain ⟨capture, hmem, hnone, hreceive⟩ := receive_of_undecoded hundecoded
    (Http.Target.ofString request.target).query request.body
  refine ⟨capture, hmem, hnone, ?_, _, ?_, PreparedResponse.write_error 400 _ (by decide)⟩
  · rw [invoked?_of_reached h hreached, hreceive]
    rfl
  · rw [h.answer_eq, answer_eq_map, respond_of_reached hreached, deliver, hreceive, map_pure]

end Reached

theorem rejects_of_unmatched
    (hnone : Pattern.best? (routes.map Route.path) (Http.Target.ofString request.target).path.toList = none) :
    Rejects table request 404 (refusal "no such endpoint" request) := by
  refine ⟨?_, _, ?_, refuse_explains 404 (by decide) "no such endpoint" _ _⟩
  · rw [h.invoked?_eq, reached?, hnone]
    rfl
  · rw [h.answer_eq, answer_eq_map, respond_of_unmatched hnone, map_pure]

theorem rejects_of_disallowed {pattern : Pattern} {captures : List (String × List Char)}
    (hbest : Pattern.best? (routes.map Route.path) (Http.Target.ofString request.target).path.toList =
      some (pattern, captures))
    (hnone : ∀ route ∈ routes, route.path = pattern → methodFor? request.method ≠ some route.method) :
    Rejects table request 405 (refusal "method not allowed" request) := by
  refine ⟨?_, _, ?_, disallow_explains
    ((routes.filter fun route => route.path = pattern).map Route.method) request.method _⟩
  · rw [h.invoked?_eq, (reached?_eq_none_iff hbest).mpr hnone]
    rfl
  · rw [h.answer_eq, answer_eq_map, respond_of_disallowed hbest hnone, map_pure]

end BeaconApi.Router
