import BeaconApi.Proofs.Node.Answers
import BeaconApi.Proofs.Server.Dispatch

universe u

namespace BeaconApi

/-- The response has an error body as JSON, which repeats its status. -/
def Http.Response.Explains (response : Http.Response) (body : ErrorBody) : Prop :=
  response.headers.get? "content-type" = some Body.contentType ∧
    response.body = (Payload.encode body).toUTF8 ∧
      body.message.code = UInt64.ofNat response.status.toNat

/-- The responses of a server: success, or an error that is explained. -/
def Http.Response.Proper (response : Http.Response) : Prop :=
  response.status ∈ [200, 202, 206] ∨
    response.status ∈ [400, 404, 405, 413, 503] ∧ ∃ body, response.Explains body

/-- Another header does not change what a response explains. -/
theorem Http.Response.Explains.withHeader {response : Http.Response} {body : ErrorBody}
    (h : response.Explains body) {name : String} (hname : "content-type" ≠ name) (value : String) :
    { response with headers := response.headers.insert name value : Http.Response }.Explains body := by
  obtain ⟨htype, hbody, hrepeats⟩ := h
  refine ⟨?_, hbody, hrepeats⟩
  rw [SortedMap.get?_insert, if_neg hname]
  exact htype

namespace PreparedResponse

variable {prepared : PreparedResponse}

theorem write_status (prepared : PreparedResponse) :
    prepared.write.1.status = (writeStatus prepared.code).1 := by
  unfold write
  dsimp only
  split <;> rfl

theorem write_status_of_isStatus (h : Http.isStatus prepared.code) :
    prepared.write.1.status = prepared.code := by
  rw [write_status, writeStatus, if_pos h]

theorem write_explains {body : ErrorBody} (h : prepared.Explains body)
    (hcode : Http.isStatus prepared.code) : prepared.write.1.Explains body := by
  obtain ⟨hbody, hheaders, hrepeats⟩ := h
  have hencode : prepared.encodeBody = .ok (some (Payload.encode body)) := by
    rw [encodeBody, hbody]
    rfl
  have hwrite : prepared.write.1 =
      ⟨(writeStatus prepared.code).1,
        (writeHeaders prepared.headers).1.insert "content-type" Body.contentType,
        (Payload.encode body).toUTF8⟩ := by
    unfold write
    rw [hencode]
  refine ⟨?_, ?_, ?_⟩
  · rw [hwrite]
    exact (SortedMap.get?_insert ..).trans (if_pos rfl)
  · rw [hwrite]
  · rw [write_status_of_isStatus hcode, hrepeats]

theorem write_error (code : UInt16) (message : String) (hcode : Http.isStatus code) :
    (error code message).write.1.status = code ∧
      (error code message).write.1.Explains (.plain (.plain (UInt64.ofNat code.toNat) message)) :=
  ⟨write_status_of_isStatus hcode, write_explains (error_explains code message) hcode⟩

/-- What a handler has properly prepared is sent properly, under the status that it has asked for.
-/
theorem write_proper (h : prepared.Proper) :
    prepared.write.1.status = prepared.code ∧ prepared.write.1.Proper := by
  have hsuccess : ∀ code ∈ [200, 202, 206], Http.isStatus code := by simp [Http.isStatus]
  have hrefusal : ∀ code ∈ [400, 404, 503],
      Http.isStatus code ∧ code ∈ [400, 404, 405, 413, 503] := by simp [Http.isStatus]
  rcases h with hcode | ⟨hcode, body, hexplains⟩
  · have hstatus := write_status_of_isStatus (hsuccess _ hcode)
    exact ⟨hstatus, .inl (hstatus ▸ hcode)⟩
  · obtain ⟨hrange, hmore⟩ := hrefusal _ hcode
    have hstatus := write_status_of_isStatus hrange
    exact ⟨hstatus, .inr ⟨hstatus ▸ hmore, body, write_explains hexplains hrange⟩⟩

end PreparedResponse

namespace Router

variable {m : Type → Type u} [Monad m]

theorem refuse_explains (code : UInt16) (hcode : Http.isStatus code) (reason method path : String) :
    (refuse code reason method path).1.status = code ∧
      (refuse code reason method path).1.Explains
        (.plain (.plain (UInt64.ofNat code.toNat) (reason ++ ": " ++ method ++ " " ++ path))) :=
  PreparedResponse.write_error code _ hcode

/-- The header that lists methods leaves the error body of a refusal as it is. -/
theorem disallow_explains (methods : List Method) (method path : String) :
    (disallow methods method path).1.status = 405 ∧
      (disallow methods method path).1.Explains
        (.plain (.plain 405 ("method not allowed" ++ ": " ++ method ++ " " ++ path))) := by
  obtain ⟨hstatus, hexplains⟩ := refuse_explains 405 (by decide) "method not allowed" method path
  exact ⟨hstatus, hexplains.withHeader (by decide) _⟩

variable {routes : List (Route m)} {request : Http.Request}

/-- A request whose path matches no pattern is refused. -/
theorem respond_of_unmatched
    (h : Pattern.best? (routes.map Route.path) (Http.Target.ofString request.target).path.toList = none) :
    respond routes request =
      pure (refuse 404 "no such endpoint" request.method (Http.Target.ofString request.target).path) := by
  unfold respond
  simp only [h]

/-- If `best?` finds a pattern and none of its routes has the method of the request, `respond` is `disallow`,
with the methods of exactly these routes. -/
theorem respond_of_disallowed {pattern : Pattern} {captures : List (String × List Char)}
    (hbest : Pattern.best? (routes.map Route.path) (Http.Target.ofString request.target).path.toList =
      some (pattern, captures))
    (hnone : ∀ route ∈ routes, route.path = pattern → methodFor? request.method ≠ some route.method) :
    respond routes request = pure (disallow ((routes.filter fun route => route.path = pattern).map Route.method)
      request.method (Http.Target.ofString request.target).path) := by
  have hfind : (routes.filter fun route => route.path = pattern).find?
      (fun route => methodFor? request.method = some route.method) = none := by
    refine List.find?_eq_none.mpr fun route hroute => ?_
    obtain ⟨hmem, hpath⟩ := List.mem_filter.mp hroute
    simpa using hnone route hmem (of_decide_eq_true hpath)
  unfold respond
  simp only [hbest, hfind]

/-- A request that reaches no route is told so in an error body. -/
theorem respond_of_not_reached (h : reached? routes request = none) :
    ∃ sent, respond routes request = pure sent ∧
      sent.1.status ∈ [404, 405] ∧ ∃ body, sent.1.Explains body := by
  cases hbest : Pattern.best? (routes.map Route.path) (Http.Target.ofString request.target).path.toList with
  | none =>
    obtain ⟨hstatus, hexplains⟩ := refuse_explains 404 (by decide) "no such endpoint"
      request.method (Http.Target.ofString request.target).path
    exact ⟨_, respond_of_unmatched hbest, by simp [hstatus], _, hexplains⟩
  | some found =>
    obtain ⟨pattern, captures⟩ := found
    have hnone := (reached?_eq_none_iff hbest).mp h
    obtain ⟨hstatus, hexplains⟩ := disallow_explains
      ((routes.filter fun route => route.path = pattern).map Route.method) request.method
      (Http.Target.ofString request.target).path
    exact ⟨_, respond_of_disallowed hbest hnone, by simp [hstatus], _, hexplains⟩

end Router

end BeaconApi
